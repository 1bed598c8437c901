import LinkedNotes.Path.Basic
import LinkedNotes.Text.Lowercase

/-!
# Names of notes

Two link texts name the same note when their normal forms are equal. The normal form forgets a note
extension at the end, case, blanks, hyphens, underscores and dots.
-/

namespace LinkedNotes.Note

/-- The extensions that make a file a note. -/
def extensions : List Text :=
  ["md".toList, "markdown".toList, "mdx".toList, "fountain".toList, "txt".toList]

/-- The character that an ASCII letter stands for when case is ignored. The Kelvin sign counts as
a `k`, the only letter of a note extension that has a variant outside ASCII. -/
def foldCase (c : Char) : Char :=
  if c = '\u212A' then 'k' else c.toLower

/-- A reversed name without one note extension and its dot at the start. -/
def stripReversed? (reversed : Text) : List Text → Option Text
  | [] => none
  | extension :: more =>
    let ending := extension.reverse ++ ['.']
    if (reversed.take ending.length).map foldCase = ending then some (reversed.drop ending.length)
    else stripReversed? reversed more

/-- A name without one note extension at its very end, whatever its case. -/
def stripExtension (name : Text) : Text :=
  match stripReversed? name.reverse extensions with
  | some rest => rest.reverse
  | none => name

/-- Whether a character only separates the words of a name. -/
def isSeparator (c : Char) : Bool :=
  Text.isBlank c || c == '-' || c == '_' || c == '.'

/-- The form of a name in which names are compared. -/
def normalize (name : Text) : Text :=
  (Text.lower (stripExtension name)).filter (!isSeparator ·)

/-- Whether two link texts name the same note. -/
def namesMatch (left right : Text) : Bool :=
  normalize left == normalize right

/-- Separators, case and a note extension do not matter. -/
example : namesMatch "My_Cool-Note.MD".toList "my cool.note".toList = true := by decide +kernel

/-- Whether the file name of a path names the same note as a link text. -/
def basenameMatches (path : Path) (raw : Text) : Bool :=
  match path.fileName? with
  | some name => namesMatch name raw
  | none => false

/-- Whether a path has one of the note extensions; here only ASCII letters ignore case. -/
def isNotePath (path : Path) : Bool :=
  match path.extension? with
  | some extension => extensions.contains (extension.map Char.toLower)
  | none => false

/-- The file name of a path without a note extension; empty for a path without a file name. -/
def stem (path : Path) : Text :=
  stripExtension (path.fileName?.getD [])

end LinkedNotes.Note
