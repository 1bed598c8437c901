import LinkedNotes.Server.Answer
import LinkedNotes.Note.Name

/-!
# Notices from the client

What the server does when the client tells it something: about its own start, about open documents,
about files, and about settings. Nothing is answered.
-/

namespace LinkedNotes.Server

variable {σ : Type}

/-- The client is ready: it is asked to watch the files of notes. -/
def ready : Handler σ Unit :=
  send .watchNotes

/-- A document was opened. -/
def didOpen (uri : Uri) (text : Text) : Handler σ Unit :=
  modify fun server => { server with documents := server.documents.opened uri text }

/-- A document was changed; a suggestion is planned if settings ask for that. -/
def didChange (uri : Uri) (changes : List ContentChange) : Handler σ Unit := do
  let server ← get
  let (documents, suggestion) := server.documents.changed uri changes
  set { server with documents := documents }
  if server.settings.notes.suggestOnEdit then suggestion.forM plan

/-- A document was closed. -/
def didClose (uri : Uri) : Handler σ Unit :=
  modify fun server => { server with documents := server.documents.closed uri }

/-- A document was saved, which may have made a new note. -/
def didSave (uri : Uri) : Handler σ Unit := do
  if uri.toPath?.any Note.isNotePath then invalidate

/-- How a file changed. -/
inductive FileEvent where
  /-- It is new, it is gone, or something unknown happened to it. -/
  | structural
  /-- Only its content changed. -/
  | content
  deriving DecidableEq, Repr

/-- Files of notes were changed; the list of notes only depends on which files there are. -/
def didChangeFiles (events : List FileEvent) : Handler σ Unit := do
  if .structural ∈ events then invalidate

/-- Files were renamed. Pairs with something that is no URI do not count. -/
def didRenameFiles (pairs : List (Text × Text)) : Handler σ Unit := do
  let pairs := pairs.filterMap fun (old, new) => do
    return (← Uri.parse? old, ← Uri.parse? new)
  modify fun server => { server with documents := server.documents.renamedAll pairs }
  invalidate

/-- The section of the client's settings that is meant for the server. -/
def sectionName : Text := "wikilinks".toList

/-- Settings were changed. They are put in force before the list of notes is dropped, so that a
later list is made with them; settings that do not fit change nothing. -/
def didChangeSettings (all : Json) : Handler σ Unit := do
  match all.field? sectionName with
  | none => return
  | some overrides =>
    match (← get).settings.mergedWith overrides with
    | .ok settings =>
      applyLogLevel settings
      storeSettings settings
      invalidate
      send (.log .info "LSP settings updated".toList)
    | .error misfit =>
      send (.log .error ("Failed to parse updated settings: ".toList ++ misfit.message))

/-- The root of the workspace: that of the client, or its first folder. -/
def rootOf (root : Option Uri) (folders : List Uri) : Option Path :=
  (root.or folders.head?).bind Uri.toPath?

/-- Prepares a workspace, with the settings of its file and what the client lays over them. -/
def prepare [FileSystem σ] (root : Path) (options : Option Json) : Handler σ Unit := do
  send (.log .info ("Initializing workspace at: ".toList ++ Text.quoted root.text))
  let loaded := ServerSettings.load (← get).files root
  let settings ← match options.map loaded.mergedWith with
    | none => pure loaded
    | some (.ok settings) => pure settings
    | some (.error misfit) =>
      send (.log .error ("Ignoring initializationOptions: ".toList ++ misfit.message))
      pure loaded
  applyLogLevel settings
  storeSettings settings
  modify ({ · with workspace := some ⟨root⟩, index := {} })

/-- The client starts the server. -/
def start [FileSystem σ] (root : Option Uri) (folders : List Uri) (options : Option Json) :
    Handler σ Answer := do
  match rootOf root folders with
  | some path => prepare path options
  | none => send (.log .warning "No rootUri provided!".toList)
  return .capabilities

end LinkedNotes.Server
