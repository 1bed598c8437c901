import LinkedNotes.Rank.Basic
import LinkedNotes.Server.State

/-!
# Answers

What the server answers, and why it refuses a request.
-/

namespace LinkedNotes

/-- A note that may complete a link, as the client gets it. -/
structure CompletionItem where
  /-- What is shown and put into the link. -/
  label : Text
  /-- What the client filters by. -/
  filterText : Text
  /-- What the client sorts by. -/
  sortText : Text
  /-- Whether it is chosen at first. -/
  preselected : Bool
  /-- What is replaced. -/
  range : TextRange
  /-- The file of the note. -/
  path : Path
  deriving DecidableEq, Repr

namespace CompletionItem

/-- Largest number of a score in a sort text. -/
def scoreSteps : Nat := 999999

/-- Largest number of a place in a sort text. -/
def placeLimit : Nat := 9999

/-- The text that sorts an item by its score and then by its place; all numbers have the same number
of digits. -/
def sortTextOf {S : Type} [Scale S] (score : S) (place : Nat) : Text :=
  Text.padded 6 (Scale.round (Scale.clamp score * Scale.ofInt scoreSteps)) ++
    '_' :: Text.padded 4 (min place placeLimit)

/-- The item for a candidate at a place in the list. -/
def ofCandidate {S : Type} [Scale S] (range : TextRange) (candidate : Candidate S) (place : Nat) :
    CompletionItem where
  label := candidate.label
  filterText := candidate.filterText
  sortText := sortTextOf candidate.score place
  preselected := place = 0
  range := range
  path := candidate.path

/-- The items for a list of candidates, each at its place. -/
def ofCandidates {S : Type} [Scale S] (range : TextRange) (candidates : List (Candidate S)) :
    List CompletionItem :=
  candidates.mapIdx fun place candidate => ofCandidate range candidate place

end CompletionItem

/-- An answer to a request. -/
inductive Answer where
  /-- There is nothing to say. -/
  | nothing
  /-- What the server can do. -/
  | capabilities
  /-- The notes that may complete a link, best first. -/
  | completions (items : List CompletionItem)
  /-- A completion item as JSON, with what is known of its note. -/
  | resolved (item : Json)
  /-- Places in documents. -/
  | places (places : List (Uri × TextRange))
  /-- A note that was asked for, and whether it was created. -/
  | note (uri : Uri) (created : Bool)

/-- Why a request is refused. -/
inductive Fault where
  /-- The server was not initialized yet. -/
  | notInitialized
  /-- The server is past this kind of request. -/
  | outOfTurn
  /-- No such request is known. -/
  | unknownMethod
  /-- A request lacks its parameters. -/
  | missingParams
  /-- The parameters of a request do not fit. -/
  | misfit (misfit : Json.Misfit)
  /-- No such command is known. -/
  | unknownCommand (name : Text)
  /-- An argument of a command is missing. -/
  | missingArgument (name : Text)
  /-- An argument of a command does not fit. -/
  | invalidArgument (name : Text)
  /-- A document has no text. -/
  | unknownDocument (uri : Uri)
  /-- There is no text in a selection. -/
  | emptySelection
  /-- There is no workspace. -/
  | noWorkspace
  /-- A note was not created. -/
  | note (error : NoteError)
  /-- A note has no URI. -/
  | noUri (path : Path)

namespace Fault

/-- The code of a server that was not initialized. -/
def notInitializedCode : Int := -32002
/-- The code of a request out of turn. -/
def outOfTurnCode : Int := -32600
/-- The code of an unknown request. -/
def unknownMethodCode : Int := -32601
/-- The code of parameters that do not fit. -/
def paramsCode : Int := -32602
/-- The code of a failure of the server. -/
def internalCode : Int := -32603

/-- The code of a fault. -/
def code : Fault → Int
  | notInitialized => notInitializedCode
  | outOfTurn => outOfTurnCode
  | unknownMethod => unknownMethodCode
  | noWorkspace | noUri _ => internalCode
  | note (.emptyTitle _) => paramsCode
  | note _ => internalCode
  | _ => paramsCode

/-- The message of a fault. -/
def message : Fault → Text
  | notInitialized => "Server not initialized".toList
  | outOfTurn => "Invalid request".toList
  | unknownMethod => "Method not found".toList
  | missingParams => "Missing params field".toList
  | misfit reason => reason.message
  | unknownCommand name => "Unknown command: ".toList ++ name
  | missingArgument name => "Missing argument: ".toList ++ name
  | invalidArgument name => "Invalid ".toList ++ name ++ " argument".toList
  | unknownDocument uri => "Unknown document: ".toList ++ uri.toText
  | emptySelection => "Selection is empty".toList
  | noWorkspace => "Workspace not initialized".toList
  | note error => error.message
  | noUri path => "Not a file path: ".toList ++ Text.quoted path.text

end Fault

namespace Server

/-- The command that creates a note from a title. -/
def newNoteCommand : Text := "wikilinks.newNote".toList

/-- The command that creates a note from a selection. -/
def newNoteFromSelectionCommand : Text := "wikilinks.newNoteFromSelection".toList

end Server
end LinkedNotes
