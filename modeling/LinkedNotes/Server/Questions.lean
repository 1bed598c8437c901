import LinkedNotes.Server.Answer
import LinkedNotes.Workspace.Queries

/-!
# Questions to the server

The requests that ask about a place in a document. Each takes what it needs from the state at once,
the settings included, and then works on the files.
-/

namespace LinkedNotes.Server

variable {σ : Type} [FileSystem σ]

/-- The start of a document. -/
def startOfDocument : TextRange := .onLine 0 0 0

/-- An answer of places, if there are any. -/
def placesOrNothing (found : List (Uri × TextRange)) : Answer :=
  if found = [] then .nothing else .places found

/-- The notes that may complete the link at a point. -/
def completion (uri : Uri) (point : Point) : Handler σ Answer := do
  match (← get).context? uri with
  | none => return .nothing
  | some context =>
    let found : Completion Float ← perform <|
      context.workspace.completionsFor context.document context.text point context.settings
    match found.link with
    | none => return .nothing
    | some link => return .completions (CompletionItem.ofCandidates link.range found.candidates)

/-- What is told about a failed search for a definition. -/
def reportFailure : NoteError → Handler σ Unit
  | .requiresUniqueNames => send (.display .warning NoteError.requiresUniqueNames.message)
  | .cancelled => return
  | error => send (.log .warning ("Go to definition failed: ".toList ++ error.message))

/-- Where the link at a point leads. -/
def definition (uri : Uri) (point : Point) : Handler σ Answer := do
  match (← get).context? uri with
  | none => return .nothing
  | some context =>
    let found ← perform <|
      context.workspace.definitionsFor context.document context.text point context.settings
    match found with
    | .ok targets =>
      return placesOrNothing <|
        (targets.filterMap Uri.ofPath?).map fun target => (target, startOfDocument)
    | .error error =>
      reportFailure error
      return .nothing

/-- The links that lead where the link at a point leads. -/
def references (uri : Uri) (point : Point) : Handler σ Answer := do
  match (← get).context? uri with
  | none => return .nothing
  | some context =>
    let found ← perform <|
      context.workspace.referencesFor context.document context.text point context.settings
    return placesOrNothing <| found.filterMap fun (path, range) =>
      (Uri.ofPath? path).map fun uri => (uri, range)

/-- A completion item with the heading of its note, when its note is known and has one. -/
def resolve (item : Json.Fields) (note : Option Path) : Handler σ Answer := do
  match note, (← get).workspace with
  | some path, some _ =>
    match ← perform (Workspace.detail? path) with
    | some heading => return .resolved (.obj (Json.Fields.set "detail".toList (.str heading) item))
    | none => return .resolved (.obj item)
  | _, _ => return .resolved (.obj item)

end LinkedNotes.Server
