import LinkedNotes.Note.Name

/-!
# File systems

What the library asks of files. Answers are computed from a state of the file system; only creating
a file changes it.
-/

namespace LinkedNotes

/-- A kind of file system with states of type `σ`. -/
class FileSystem (σ : Type) where
  /-- The text of a file, unless it is missing or not readable as a text. -/
  read : σ → Path → Option Text
  /-- Whether a regular file is at a path. -/
  isFile : σ → Path → Bool
  /-- Writes a file with the directories above it, over an old file if there is one. A failure has
  the message of the system, and may have changed something on its way. -/
  create : σ → Path → Text → Except Text Unit × σ
  /-- The files with a note extension below a directory, in any order. -/
  list : σ → Path → List Path
  /-- Those of the given paths below a directory that git ignores, unless git fails. -/
  ignored : σ → Path → List Text → Option (List Text)

end LinkedNotes
