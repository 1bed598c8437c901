import LinkedNotes.Server.Answer
import LinkedNotes.Server.MessageParts
import LinkedNotes.Workspace.Creation

/-!
# Commands

The two commands of the server create a note, from a title or from a selection. A selection is
replaced by the link to its note, which the client does at a request of the server; what the client
says to it does not count.
-/

namespace LinkedNotes.Server

variable {σ : Type} [FileSystem σ]

/-- An argument of a command, which has to be there and to fit. -/
def argument {α : Type} (arguments : List Json) (place : Nat) (name : String)
    (read : Json → Except Json.Misfit α) : Except Fault α :=
  match arguments[place]? with
  | none => .error (.missingArgument name.toList)
  | some value =>
    match read value with
    | .ok value => .ok value
    | .error _ => .error (.invalidArgument name.toList)

/-- The document of an optional argument, if it is given and has a path. -/
def documentArgument (arguments : List Json) (place : Nat) : Except Fault (Option Path) :=
  match arguments[place]? with
  | none | some .null => .ok none
  | some _ => (argument arguments place "uri" Json.readUri).map Uri.toPath?

/-- Creates a note with a title at a moment. -/
def createNote (now : Moment) (title : Text) (active : Option Path) :
    Handler σ (Except Fault Workspace.NewNote) := do
  let server ← get
  match server.workspace with
  | none => return .error .noWorkspace
  | some workspace =>
    match ← perform (workspace.newNote title active server.settings.notes now) with
    | .ok note => return .ok note
    | .error error => return .error (.note error)

/-- The answer about a note. -/
def noteAnswer (note : Workspace.NewNote) : Except Fault Answer :=
  match Uri.ofPath? note.path with
  | some uri => .ok (.note uri note.created)
  | none => .error (.noUri note.path)

/-- Creates a note from a title; a document may tell where. -/
def newNote (now : Moment) (arguments : List Json) : Handler σ (Except Fault Answer) := do
  let given : Except Fault (Text × Option Path) := do
    let title ← argument arguments 0 "title" Json.readText
    return (title, ← documentArgument arguments 1)
  match given with
  | .error fault => return .error fault
  | .ok (title, active) =>
    match ← createNote now title active with
    | .ok note => return noteAnswer note
    | .error fault => return .error fault

/-- The text that a range of a document covers, without blanks around it; it must not be empty. -/
def selection (server : Server σ) (uri : Uri) (range : TextRange) : Except Fault Text :=
  match server.documentText? uri with
  | none => .error (.unknownDocument uri)
  | some text =>
    let selected := Text.trim ((Text.inRange? text range).getD [])
    if selected = [] then .error .emptySelection else .ok selected

/-- Creates a note from a selection, and asks the client to replace the selection by a link. -/
def newNoteFromSelection (now : Moment) (arguments : List Json) :
    Handler σ (Except Fault Answer) := do
  let server ← get
  let given : Except Fault (Uri × TextRange × Text) := do
    let uri ← argument arguments 0 "uri" Json.readUri
    let range ← argument arguments 1 "range" Json.readRange
    return (uri, range, ← selection server uri range)
  match given with
  | .error fault => return .error fault
  | .ok (uri, range, title) =>
    match ← createNote now title uri.toPath? with
    | .error fault => return .error fault
    | .ok note =>
      send (.replace uri range note.linkText)
      return noteAnswer note

/-- Runs a command by its name. -/
def execute (now : Moment) (command : Text) (arguments : List Json) :
    Handler σ (Except Fault Answer) :=
  if command = newNoteCommand then newNote now arguments
  else if command = newNoteFromSelectionCommand then newNoteFromSelection now arguments
  else return .error (.unknownCommand command)

end LinkedNotes.Server
