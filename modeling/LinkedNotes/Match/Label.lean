import LinkedNotes.Text.Basic

/-!
# Labels with a directory

The label `name (dir)` names a note in another directory. The name is the shortest one that leaves
such a label, blanks after it do not count, and the directory is everything up to the last
parenthesis. Neither part may be empty or hold a line feed.
-/

namespace LinkedNotes.Match

/-- What follows blanks and an opening parenthesis, if it can be a directory. -/
def dirAfterName? (rest : Text) : Option Text :=
  match Text.trimStart rest with
  | '(' :: dir => if dir ≠ [] ∧ '\n' ∉ dir then some dir else none
  | _ => none

/-- Cuts a label that lacks its last parenthesis after the shortest name. -/
def cutLabel? : Text → Option (Text × Text)
  | [] => none
  | c :: rest =>
    if c = '\n' then none
    else match dirAfterName? rest with
      | some dir => some ([c], dir)
      | none => (cutLabel? rest).map fun (name, dir) => (c :: name, dir)

/-- Name and directory of a label `name (dir)`. -/
def splitLabel? (raw : Text) : Option (Text × Text) :=
  let label := Text.trim raw
  if label.getLast? = some ')' then cutLabel? label.dropLast else none

end LinkedNotes.Match
