import LinkedNotes.Link.Token

/-!
# The link under the cursor

A cursor is at a link when it stands inside or at an end of its token, or between brackets that
were just typed around nothing. Completion also takes a link that is not closed yet.
-/

namespace LinkedNotes

/-- The link that a cursor is at. -/
structure Link where
  /-- The text of the link, as it was written. -/
  text : Text
  /-- The place of that text in the document. -/
  range : TextRange
  deriving DecidableEq, Repr

namespace Link

/-- The first link token of a line that holds a column; its ends belong to it. -/
def containing? (line : Text) (row col : Nat) : Option Link :=
  ((tokens line).find? fun token => token.col ≤ col && col ≤ token.endCol).map fun token =>
    ⟨token.text, .onLine row (token.col + 2) (token.endCol - 2)⟩

/-- The empty link at a column that comes right after opening brackets, at the end of the line or
before closing brackets. -/
def empty? (line : Text) (row col : Nat) : Option Link :=
  let (before, after) := Text.cutAtCol col line
  if opening.isSuffixOf before ∧ (after = [] ∨ closing.isPrefixOf after) then
    some ⟨[], .onLine row col col⟩
  else none

/-- A text cut after the last opening brackets in it. -/
def cutAfterOpening? : Text → Option (Text × Text)
  | [] => none
  | c :: rest =>
    match cutAfterOpening? rest with
    | some (before, word) => some (c :: before, word)
    | none => if opening.isPrefixOf (c :: rest) then some (opening, rest.drop 1) else none

/-- The link that was opened before a column and not closed up to it. -/
def open? (line : Text) (row col : Nat) : Option Link :=
  let before := (Text.cutAtCol col line).1
  match cutAfterOpening? before with
  | none => none
  | some (start, word) =>
    if Text.containsText closing word then none
    else some ⟨word, .onLine row (Text.width start) (Text.width before)⟩

/-- The link at a column of a line: a token around it, else an empty link. -/
def at? (line : Text) (row col : Nat) : Option Link :=
  (containing? line row col).or (empty? line row col)

/-- The link at a column of a line, or one that is still being typed there. -/
def atOrOpen? (line : Text) (row col : Nat) : Option Link :=
  (at? line row col).or (open? line row col)

/-- The link at a point of a document. -/
def atPoint? (text : Text) (point : Point) : Option Link := do
  let line ← Text.lineAt? text point.line
  at? line point.line point.col

/-- The link at a point of a document, or one that is still being typed there. -/
def atPointOrOpen? (text : Text) (point : Point) : Option Link := do
  let line ← Text.lineAt? text point.line
  atOrOpen? line point.line point.col

end Link
end LinkedNotes
