import LinkedNotes.Server.Documents
import LinkedNotes.Settings.Server
import LinkedNotes.Workspace.Creation

/-!
# The state of the server

What the server keeps between messages, and what it sends to its client on its own. Handlers are
steps on the state. Suggestions wait for some time after an edit; time only passes when the server
is told so, and those whose time has come are then sent if they are still wanted.
-/

namespace LinkedNotes

/-- How grave a message to the user is. -/
inductive Gravity where
  | error
  | warning
  | info
  deriving DecidableEq, Repr

/-- What the server sends on its own. -/
inductive Outgoing where
  /-- A line for the log of the client. -/
  | log (gravity : Gravity) (text : Text)
  /-- A message that the user sees. -/
  | display (gravity : Gravity) (text : Text)
  /-- A request to watch the files of notes. -/
  | watchNotes
  /-- A request to replace a range of a document. -/
  | replace (uri : Uri) (range : TextRange) (text : Text)
  /-- A hint to open suggestions again. -/
  | suggest (uri : Uri) (cursor : Point)
  deriving DecidableEq, Repr

/-- How far the server has come. -/
inductive Phase where
  /-- It waits to be initialized. -/
  | fresh
  /-- It answers. -/
  | running
  /-- It was told to shut down. -/
  | stopped
  deriving DecidableEq, Repr

/-- The state of a server. -/
structure Server (σ : Type) where
  /-- The files. -/
  files : σ
  /-- How far it has come. -/
  phase : Phase := .fresh
  /-- The workspace, once there is one. -/
  workspace : Option Workspace := none
  /-- The list of notes that is kept. -/
  index : NoteIndex := {}
  /-- The settings in force. -/
  settings : ServerSettings := {}
  /-- How much the process logs; nothing at first. -/
  logFilter : Option LogLevel := none
  /-- The open documents. -/
  documents : Documents := {}
  /-- Milliseconds that have passed. -/
  time : Nat := 0
  /-- Planned suggestions with their times, in order. -/
  planned : List (Nat × Suggestion) := []
  /-- What was sent, in order. -/
  sent : List Outgoing := []

/-- A step of the server. -/
abbrev Handler (σ α : Type) := StateM (Server σ) α

namespace Server

variable {σ : Type}

/-- Sends something to the client. -/
def send (message : Outgoing) : Handler σ Unit :=
  modify fun server => { server with sent := server.sent ++ [message] }

/-- Runs an operation on the workspace. -/
def perform {α : Type} (action : Action σ α) : Handler σ α :=
  fun server =>
    let (result, session) := action { files := server.files, index := server.index }
    (result, { server with files := session.files, index := session.index })

/-- Starts a new generation of the list of notes, if there is a workspace. -/
def invalidate : Handler σ Unit :=
  modify fun server =>
    if server.workspace.isSome then { server with index := server.index.invalidate } else server

/-- A new generation is only started where there is a workspace. -/
theorem invalidate_run (server : Server σ) :
    (invalidate.run server).2 =
      if server.workspace.isSome = true then { server with index := server.index.invalidate }
      else server :=
  rfl

/-- Puts settings in force. -/
def storeSettings (settings : ServerSettings) : Handler σ Unit :=
  modify ({ · with settings := settings })

/-- Logs as much as settings ask for. -/
def applyLogLevel (settings : ServerSettings) : Handler σ Unit :=
  modify ({ · with logFilter := some settings.logLevel })

/-- Milliseconds between an edit and a suggestion. -/
def suggestionDelay : Nat := 100

/-- Plans a suggestion. -/
def plan (suggestion : Suggestion) : Handler σ Unit :=
  modify fun server =>
    { server with planned := server.planned ++ [(server.time + suggestionDelay, suggestion)] }

/-- Sends a suggestion if it is still wanted. -/
def fire (suggestion : Suggestion) : Handler σ Unit := do
  if (← get).documents.wants suggestion then send (.suggest suggestion.uri suggestion.cursor)

/-- Lets time pass. -/
def pass (milliseconds : Nat) : Handler σ Unit := do
  let server ← get
  let time := server.time + milliseconds
  let due := server.planned.takeWhile (·.1 ≤ time)
  set { server with time := time, planned := server.planned.drop due.length }
  due.forM fun (_, suggestion) => fire suggestion

variable [FileSystem σ]

/-- The text of a document: that of the editor if it is open, else that of its file. -/
def documentText? (server : Server σ) (uri : Uri) : Option Text :=
  (server.documents.texts.get? uri).or
    (uri.toPath?.bind (FileSystem.read server.files ·))

end Server

/-- What a question about a place in a document works with. -/
structure RequestContext where
  /-- The workspace. -/
  workspace : Workspace
  /-- The settings that were in force when the question came. -/
  settings : Settings
  /-- The file of the document. -/
  document : Path
  /-- Its text. -/
  text : Text

/-- What a question about a document works with, if there is a workspace and the document has a path
and a text. -/
def Server.context? {σ : Type} [FileSystem σ] (server : Server σ) (uri : Uri) :
    Option RequestContext := do
  let workspace ← server.workspace
  let document ← uri.toPath?
  let text ← server.documentText? uri
  return ⟨workspace, server.settings.notes, document, text⟩

end LinkedNotes
