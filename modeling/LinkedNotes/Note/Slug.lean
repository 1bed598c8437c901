import LinkedNotes.Text.Alphanumeric
import LinkedNotes.Text.Basic
import LinkedNotes.Text.Lowercase

/-!
# Slugs

The slug of a title is the stem of the file that a note with this title gets: the letters and
digits of the title, with one hyphen for each run of other characters between two of them.
-/

namespace LinkedNotes.Note

/-- The slug of the rest of a title. `started` tells whether a letter or digit came before, and
`pending` whether something else came since. -/
def slugFrom : Bool → Bool → Text → Text
  | _, _, [] => []
  | started, pending, c :: rest =>
    if Text.isAlphanumeric c then
      (if started && pending then ['-', c] else [c]) ++ slugFrom true false rest
    else slugFrom started true rest

/-- The slug of a title, of its lower case if asked for. -/
def slug (title : Text) (lowercase : Bool) : Text :=
  slugFrom false false (if lowercase then Text.lower title else title)

/-- The file name of a note with the given title. -/
def fileNameOf (title : Text) : Text :=
  slug title true ++ ".md".toList

end LinkedNotes.Note
