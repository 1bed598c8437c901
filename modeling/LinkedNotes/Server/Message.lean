import LinkedNotes.Server.MessageParts
import LinkedNotes.Server.Notices

/-!
# Messages of the client

The requests and notices that the server knows, and how they are read from JSON.
-/

namespace LinkedNotes.Server

open Json (Misfit required optional readText readUri readPoint readList)

/-- A request. -/
inductive Request where
  /-- To start, with the root, the folders, and settings. -/
  | start (root : Option Uri) (folders : List Uri) (options : Option Json)
  /-- To shut down. -/
  | shutdown
  /-- For notes that complete the link at a point. -/
  | completion (uri : Uri) (point : Point)
  /-- For more about a completion item; its note is given if the item names it. -/
  | resolve (item : Json.Fields) (note : Option Path)
  /-- For where the link at a point leads. -/
  | definition (uri : Uri) (point : Point)
  /-- For the links that lead where the link at a point leads. -/
  | references (uri : Uri) (point : Point)
  /-- To run a command. -/
  | execute (command : Text) (arguments : List Json)

/-- A notice. -/
inductive Notice where
  /-- The client is ready. -/
  | ready
  /-- A document was opened. -/
  | opened (uri : Uri) (text : Text)
  /-- A document was changed. -/
  | changed (uri : Uri) (changes : List ContentChange)
  /-- A document was closed. -/
  | closed (uri : Uri)
  /-- A document was saved. -/
  | saved (uri : Uri)
  /-- Watched files were changed. -/
  | filesChanged (events : List FileEvent)
  /-- Files were renamed. -/
  | renamed (pairs : List (Text × Text))
  /-- Settings were changed. -/
  | configured (all : Json)

/-- The document that a message names. -/
def readDocument (params : Json) : Except Misfit Uri :=
  required "textDocument" (required "uri" readUri) params

/-- The document and the point that a message names. -/
def readPlace (params : Json) : Except Misfit (Uri × Point) := do
  let uri ← readDocument params
  return (uri, ← required "position" readPoint params)

/-- The folders of a workspace; null stands for none. -/
def readFolders (params : Json) : Except Misfit (List Uri) := do
  let folders ← optional "workspaceFolders" (readList (required "uri" readUri)) params
  return folders.getD []

/-- The names of the fields of a completion item. -/
def itemFields : List Text :=
  ["additionalTextEdits".toList, "command".toList, "commitCharacters".toList, "data".toList,
    "deprecated".toList, "detail".toList, "documentation".toList, "filterText".toList,
    "insertText".toList, "insertTextFormat".toList, "insertTextMode".toList, "kind".toList,
    "label".toList, "labelDetails".toList, "preselect".toList, "sortText".toList, "tags".toList,
    "textEdit".toList]

/-- A completion item: its known fields without those that are null. -/
def readItem (params : Json) : Except Misfit Json.Fields := do
  let _ ← required "label" readText params
  match params with
  | .obj fields =>
    return fields.filter fun (name, value) =>
      Text.isOneOf name itemFields && (match value with | .null => false | _ => true)
  | other => throw (.wrongKind other "struct CompletionItem".toList)

/-- The note that the data of a completion item name. -/
def noteOfItem? (item : Json.Fields) : Option Path :=
  match Json.Fields.get? "data".toList item with
  | some (.arr [.str path]) => some ⟨path⟩
  | some data =>
    match data.field? "path".toList with
    | some (.str path) => some ⟨path⟩
    | _ => none
  | none => none

/-- The number of an event in which only the content of a file changed. -/
def contentEvent : Int := 2

/-- What happened to a file. -/
def readEvent (value : Json) : Except Misfit FileEvent := do
  let _ ← required "uri" readUri value
  let number ← required "type" Json.readInt value
  return if number = contentEvent then .content else .structural

/-- The old and the new name of a file. -/
def readPair (value : Json) : Except Misfit (Text × Text) := do
  let old ← required "oldUri" readText value
  return (old, ← required "newUri" readText value)

/-- The arguments of a command; a command without the field has none. -/
def readArguments (params : Json) : Except Misfit (List Json) :=
  match params.field? "arguments".toList with
  | none => .ok []
  | some value => readList Json.readAny value

/-- Reads parameters that have to be there. -/
def withParams {α : Type} (read : Json → Except Misfit α) : Option Json → Except Fault α
  | none => .error .missingParams
  | some params =>
    match read params with
    | .ok value => .ok value
    | .error misfit => .error (.misfit misfit)

/-- How the request of a method is read from its parameters; nothing for an unknown method. -/
def Request.ofMethod? (method : Text) : Option (Option Json → Except Fault Request) :=
  match String.ofList method with
  | "initialize" => some <| withParams fun params => do
    let root ← optional "rootUri" readUri params
    let folders ← readFolders params
    let _ ← required "capabilities" Json.readAny params
    return .start root folders (← optional "initializationOptions" Json.readAny params)
  | "shutdown" => some fun _ => .ok .shutdown
  | "textDocument/completion" => some <| withParams fun params => do
    let (uri, point) ← readPlace params
    return .completion uri point
  | "completionItem/resolve" => some <| withParams fun params => do
    let item ← readItem params
    return .resolve item (noteOfItem? item)
  | "textDocument/definition" => some <| withParams fun params => do
    let (uri, point) ← readPlace params
    return .definition uri point
  | "textDocument/references" => some <| withParams fun params => do
    let (uri, point) ← readPlace params
    let _ ← required "context" (required "includeDeclaration" Json.readBool) params
    return .references uri point
  | "workspace/executeCommand" => some <| withParams fun params => do
    let arguments ← readArguments params
    return .execute (← required "command" readText params) arguments
  | _ => none

/-- How the notice of a method is read from its parameters; nothing for an unknown method. -/
def Notice.ofMethod? (method : Text) : Option (Json → Except Misfit Notice) :=
  match String.ofList method with
  | "initialized" => some fun _ => return .ready
  | "textDocument/didOpen" => some fun params => do
    let document ← required "textDocument" Json.readAny params
    let uri ← required "uri" readUri document
    let _ ← required "languageId" readText document
    let _ ← required "version" Json.readInt document
    return .opened uri (← required "text" readText document)
  | "textDocument/didChange" => some fun params => do
    let document ← required "textDocument" Json.readAny params
    let uri ← required "uri" readUri document
    let _ ← required "version" Json.readInt document
    return .changed uri (← required "contentChanges" (readList Json.readChange) params)
  | "textDocument/didClose" => some fun params => return .closed (← readDocument params)
  | "textDocument/didSave" => some fun params => return .saved (← readDocument params)
  | "workspace/didChangeWatchedFiles" => some fun params =>
    return .filesChanged (← required "changes" (readList readEvent) params)
  | "workspace/didRenameFiles" => some fun params =>
    return .renamed (← required "files" (readList readPair) params)
  | "workspace/didChangeConfiguration" => some fun params =>
    return .configured (← required "settings" Json.readAny params)
  | _ => none

end LinkedNotes.Server
