import LinkedNotes.Path.Basic
import LinkedNotes.Text.Quoted

/-!
# Why a note is not created

The failures of operations that create notes, and their messages.
-/

namespace LinkedNotes

/-- Why a note is not created. -/
inductive NoteError where
  /-- Notes for dangling links are only made under unique names. -/
  | requiresUniqueNames
  /-- A title has no letter or digit. -/
  | emptyTitle (title : Text)
  /-- The file system refuses the file, with its message. -/
  | io (path : Path) (message : Text)
  /-- The operation was cancelled. -/
  | cancelled
  deriving DecidableEq, Repr

/-- The message of an error. -/
def NoteError.message : NoteError → Text
  | .requiresUniqueNames =>
    "creating missing notes on go-to-definition only works with namingConvention = ".toList ++
      "\"uniqueFilenames\"".toList
  | .emptyTitle title => "cannot derive a file name from ".toList ++ Text.quoted title
  | .io path message =>
    "failed to write ".toList ++ Text.quoted path.text ++ ": ".toList ++ message
  | .cancelled => "request cancelled".toList

end LinkedNotes
