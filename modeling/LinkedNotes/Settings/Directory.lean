import LinkedNotes.Path.Basic
import LinkedNotes.Text.Blank

/-!
# Directories for new notes

The policy that says where a new note goes. Settings hold it as a text: one of two reserved words,
or a path below the root of the workspace.
-/

namespace LinkedNotes

/-- Where new notes are created. -/
inductive NoteDirectory where
  /-- In the directory of the note being edited. -/
  | besideActive
  /-- In the root of the workspace. -/
  | workspaceRoot
  /-- In a directory below the root of the workspace. -/
  | inside (path : Path)
  deriving DecidableEq, Repr

namespace NoteDirectory

/-- The reserved word of the directory of the active note. -/
def besideActiveWord : Text :=
  "SAME_AS_ACTIVE_NOTE".toList

/-- The reserved word of the root of the workspace. -/
def workspaceRootWord : Text :=
  "WORKSPACE_ROOT".toList

/-- The policy that a text stands for; blanks around it do not count, and no text means the
directory of the active note. -/
def ofText (value : Text) : NoteDirectory :=
  let word := Text.trim value
  if word = [] ∨ word = besideActiveWord then .besideActive
  else if word = workspaceRootWord then .workspaceRoot
  else .inside ⟨word⟩

/-- The text of a policy. -/
def toText : NoteDirectory → Text
  | .besideActive => besideActiveWord
  | .workspaceRoot => workspaceRootWord
  | .inside path => path.text

/-- The directory that a policy means. A path with a root is taken below the workspace too. -/
def resolve (policy : NoteDirectory) (root : Path) (active : Option Path) : Path :=
  match policy with
  | .besideActive => (active.bind Path.parent?).getD root
  | .workspaceRoot => root
  | .inside path => root.join ((path.stripPrefix? ⟨['/']⟩).getD path)

end NoteDirectory
end LinkedNotes
