import LinkedNotes.Files.Basic
import LinkedNotes.Workspace.Index

/-!
# Sessions

What an operation on a workspace works with: the files, the note index, and the token by which its
caller can cancel it. The token counts the calls of the file system. Nothing else takes time, so a
caller can cancel before the operation or during one of these calls.
-/

namespace LinkedNotes

/-- A call of the file system or of git. -/
inductive Call where
  /-- Listing the files of a workspace. -/
  | list
  /-- Reading a file. -/
  | read
  /-- Asking whether a file exists. -/
  | isFile
  /-- Asking git which of some paths it ignores. -/
  | git
  /-- Creating a file. -/
  | create
  deriving DecidableEq, Repr

/-- A token by which an operation can be cancelled. -/
structure Token where
  /-- Whether the operation is cancelled. -/
  cancelled : Bool := false
  /-- The calls so far, the latest first. -/
  calls : List Call := []
  /-- Whether the caller cancels during the latest of some calls. -/
  trips : List Call → Bool := fun _ => false

namespace Token

/-- The token after a call has begun. -/
def during (token : Token) (call : Call) : Token :=
  let calls := call :: token.calls
  { token with calls := calls, cancelled := token.cancelled || token.trips calls }

/-- Number of calls of one kind so far. -/
def count (token : Token) (call : Call) : Nat :=
  token.calls.count call

/-- A token that is cancelled before the operation starts. -/
def spent : Token :=
  { cancelled := true }

/-- A token that is cancelled during a call of a kind, counted from one. -/
def cancelledDuring (call : Call) (n : Nat) : Token :=
  { trips := fun calls => calls.head? = some call && calls.count call = n }

end Token

/-- What an operation works with. -/
structure Session (σ : Type) where
  /-- The state of the files. -/
  files : σ
  /-- The list of notes that is kept. -/
  index : NoteIndex := {}
  /-- The token of the running operation. -/
  token : Token := {}

/-- A step of an operation. -/
abbrev Action (σ α : Type) := StateM (Session σ) α

namespace Action

variable {σ : Type}

instance : MonadStateOf NoteIndex (StateM (Session σ)) where
  get session := (session.index, session)
  set index session := ((), { session with index := index })
  modifyGet f session :=
    let (result, index) := f session.index
    (result, { session with index := index })

/-- Whether the operation is cancelled. -/
def cancelled : Action σ Bool :=
  fun session => (session.token.cancelled, session)

/-- Starts a new generation of the list of notes. -/
def invalidate : Action σ Unit :=
  fun session => ((), { session with index := session.index.invalidate })

/-- Notes that a call has begun. -/
def began (call : Call) : Action σ Unit :=
  fun session => ((), { session with token := session.token.during call })

/-- An answer that depends on the files alone. -/
def ask {α : Type} (call : Call) (answer : σ → α) : Action σ α := do
  began call
  fun session => (answer session.files, session)

variable [FileSystem σ]

/-- The text of a file. -/
def read (path : Path) : Action σ (Option Text) :=
  ask .read (FileSystem.read · path)

/-- Whether a file is at a path. -/
def isFile (path : Path) : Action σ Bool :=
  ask .isFile (FileSystem.isFile · path)

/-- The notes below a directory, in any order. -/
def list (root : Path) : Action σ (List Path) :=
  ask .list (FileSystem.list · root)

/-- Those of the paths below a directory that git ignores, unless git fails. -/
def gitIgnored (root : Path) (paths : List Text) : Action σ (Option (List Text)) :=
  ask .git (FileSystem.ignored · root paths)

/-- Writes a file, over an old one if there is one. -/
def create (path : Path) (content : Text) : Action σ (Except Text Unit) := do
  began .create
  fun session =>
    let (result, files) := FileSystem.create session.files path content
    (result, { session with files := files })

end Action
end LinkedNotes
