import LinkedNotes.Text.Position

/-!
# Content changes

An editor reports a change as a new text for a range, or for the whole document. A range that
starts on a missing line changes nothing; one that only ends on a missing line reaches to the end.
-/

namespace LinkedNotes

/-- A change of a document. -/
structure ContentChange where
  /-- What is replaced; everything when absent. -/
  range : Option TextRange
  /-- The new text. -/
  text : Text
  deriving DecidableEq, Repr

namespace ContentChange

/-- The document after a change, and where the cursor stands after an edit inside it. -/
def apply (document : Text) (change : ContentChange) : Text × Option Point :=
  match change.range with
  | none => (change.text, none)
  | some range =>
    match Text.pointToOffset? document range.start with
    | none => (document, none)
    | some start =>
      let stop := (Text.pointToOffset? document range.stop).getD (Text.size document)
      let before := (Text.cutAtOffset (min start stop) document).1
      let after := (Text.cutAtOffset (max start stop) document).2
      (before ++ change.text ++ after, some (Text.endOf range.start change.text))

/-- The document after several changes, and where the cursor stands after the last of them. -/
def applyAll (document : Text) (changes : List ContentChange) : Text × Option Point :=
  changes.foldl (fun (text, _) change => change.apply text) (document, none)

end ContentChange
end LinkedNotes
