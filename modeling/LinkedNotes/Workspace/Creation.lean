import LinkedNotes.Note.Slug
import LinkedNotes.Note.Stamp
import LinkedNotes.Note.Template
import LinkedNotes.Settings.Basic
import LinkedNotes.Workspace.NoteError
import LinkedNotes.Workspace.Session

/-!
# Creating notes

A note is created where a dangling link points, or from a title by the settings of new notes. Either
way its file is written only when no file is there, in four steps that other operations may come
between. Main statement: the steps, taken one after the other, are the whole operation.
-/

namespace LinkedNotes

/-- A workspace. -/
structure Workspace where
  /-- The directory that holds the notes. -/
  root : Path
  deriving DecidableEq, Repr

namespace Creation

variable {σ : Type} [FileSystem σ]

/-- How far the writing of a note has come. -/
inductive Stage where
  /-- To look whether the file exists. -/
  | look
  /-- To see whether the operation is cancelled. -/
  | decide
  /-- To write the file. -/
  | write
  /-- To start a new generation of the list of notes. -/
  | announce
  /-- Nothing is left to do; the result tells whether the note was created. -/
  | done (result : Except NoteError Bool)

/-- The next step of the writing of a note. -/
def Stage.next (path : Path) (content : Text) : Stage → Action σ Stage
  | look => return if ← Action.isFile path then done (.ok false) else decide
  | decide => return if ← Action.cancelled then done (.error .cancelled) else write
  | write => do
    match ← Action.create path content with
    | .ok () => return announce
    | .error message => return done (.error (.io path message))
  | announce => do
    Action.invalidate
    return done (.ok true)
  | done result => return done result

/-- Some number of steps of the writing of a note. -/
def Stage.after (path : Path) (content : Text) : Nat → Stage → Action σ Stage
  | 0, stage => return stage
  | n + 1, stage => do after path content n (← stage.next path content)

/-- Writes a note unless its file exists; tells whether it was created. -/
def writeIfAbsent (path : Path) (content : Text) : Action σ (Except NoteError Bool) := do
  if ← Action.isFile path then return .ok false
  if ← Action.cancelled then return .error .cancelled
  match ← Action.create path content with
  | .error message => return .error (.io path message)
  | .ok () =>
    Action.invalidate
    return .ok true

/-- Nothing happens after the last step. -/
theorem after_done (path : Path) (content : Text) (n : Nat) (result : Except NoteError Bool) :
    Stage.after path content n (.done result) = (pure (.done result) : Action σ Stage) := by
  induction n with
  | zero => rfl
  | succ n ih => simp [Stage.after, Stage.next, ih]

/-- The writing of a note is done after four steps, with the result of the whole. -/
theorem after_four_look (path : Path) (content : Text) :
    Stage.after path content 4 .look =
      (Stage.done <$> writeIfAbsent path content : Action σ Stage) := by
  rw [Stage.after]
  simp only [Stage.next, writeIfAbsent, bind_assoc, pure_bind, map_bind]
  refine bind_congr fun present => ?_
  cases present with
  | true => simp [after_done]
  | false =>
    simp only [Bool.false_eq_true, if_false]
    rw [Stage.after]
    simp only [Stage.next, bind_assoc, pure_bind, map_bind]
    refine bind_congr fun stopped => ?_
    cases stopped with
    | true => simp [after_done]
    | false =>
      simp only [Bool.false_eq_true, if_false]
      rw [Stage.after]
      simp only [Stage.next, bind_assoc, map_bind]
      refine bind_congr fun written => ?_
      cases written with
      | error message => simp [after_done]
      | ok _ => simp [Stage.after, Stage.next]

end Creation

namespace Workspace

variable {σ : Type} [FileSystem σ]

/-- The title of the note that a dangling link asks for. -/
def missingTitle (raw : Text) : Text :=
  Note.stripExtension (Text.trim raw)

/-- The text of a note that is created for a dangling link. -/
def missingContent (title : Text) : Text :=
  "# ".toList ++ title ++ ['\n', '\n']

/-- Creates the note that a dangling link in a document asks for, next to the document. Gives its
path, also when the file was there already, and no path when this is switched off or the document
has no directory. -/
def createMissingNote (raw : Text) (document : Path) (settings : Settings) :
    Action σ (Except NoteError (Option Path)) := do
  if !settings.createMissing then return .ok none
  if settings.convention ≠ .uniqueNames then return .error .requiresUniqueNames
  let title := missingTitle raw
  if Note.slug title true = [] then return .error (.emptyTitle raw)
  match document.parent? with
  | none => return .ok none
  | some dir =>
    let path := dir.join ⟨Note.fileNameOf title⟩
    match ← Creation.writeIfAbsent path (missingContent title) with
    | .ok _ => return .ok (some path)
    | .error error => return .error error

/-- A note that was asked for by its title. -/
structure NewNote where
  /-- Where its file is. -/
  path : Path
  /-- Whether the file was created; an existing file is left alone. -/
  created : Bool
  /-- The link to the note that may replace a selection. -/
  linkText : Text
  deriving DecidableEq, Repr

/-- Creates a note with a title by the settings of new notes, at a moment. -/
def newNote (workspace : Workspace) (title : Text) (active : Option Path) (settings : Settings)
    (now : Moment) : Action σ (Except NoteError NewNote) := do
  let title := Text.trim title
  let stamp := Stamp.format now settings.newNote.stampFormat
  let stem := Note.slug (Template.render settings.newNote.filenameTemplate title stamp)
    settings.newNote.lowercaseFilename
  if title = [] ∨ stem = [] then return .error (.emptyTitle title)
  let dir := settings.newNote.directory.resolve workspace.root active
  let path := dir.join ⟨stem ++ ".md".toList⟩
  let content := Template.render settings.newNote.contentTemplate title stamp
  match ← Creation.writeIfAbsent path content with
  | .error error => return .error error
  | .ok created =>
    return .ok ⟨path, created, Template.render settings.newNote.linkTemplate title stamp⟩

end Workspace
end LinkedNotes
