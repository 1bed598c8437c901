import LinkedNotes.Link.Cursor
import LinkedNotes.Match.Resolver
import LinkedNotes.Rank.Basic
import LinkedNotes.Workspace.Creation
import LinkedNotes.Workspace.Discovery

/-!
# Questions about links

What an editor asks a workspace about the link at a cursor: which notes could complete it, where it
leads, and which other links lead to the same note. A cancelled question has an empty answer.
-/

namespace LinkedNotes

/-- The link that is being edited, with the notes that could complete it. -/
structure Completion (S : Type) where
  /-- The link; without one there are no candidates. -/
  link : Option Link := none
  /-- The notes, best first. -/
  candidates : List (Candidate S) := []

namespace Workspace

variable {σ : Type} [FileSystem σ]

/-- The known notes, enumerated only when the kept list is out of date. -/
def notes (workspace : Workspace) (settings : Settings) : Action σ (List Path) :=
  NoteIndex.getOrRefill settings.index.cacheEnabled
    (Discovery.notes workspace.root settings.index)

/-- How links are matched in a workspace. -/
def matcher (workspace : Workspace) (settings : Settings) : Matcher :=
  ⟨workspace.root, settings.convention⟩

/-- The notes that could complete the link at a point of a document, also one that is still being
typed. -/
def completionsFor {S : Type} [Scale S] (workspace : Workspace) (document : Path) (text : Text)
    (point : Point) (settings : Settings) : Action σ (Completion S) := do
  match Link.atPointOrOpen? text point with
  | none => return {}
  | some link =>
    let notes ← workspace.notes settings
    if ← Action.cancelled then return {}
    let ranker : Ranker := ⟨workspace.root, settings.convention, some document⟩
    return ⟨some link, ranker.rank link.text notes⟩

/-- What a first-level heading starts with. -/
def headingMark : Text := ['#', ' ']

/-- The first first-level heading of a text, unless it is blank. -/
def heading? (content : Text) : Option Text := do
  let line ← (Text.lines content).find? (headingMark.isPrefixOf ·)
  let title := Text.trim (line.drop headingMark.length)
  if title = [] then none else some title

/-- The first heading of a note that can be read. -/
def detail? (path : Path) : Action σ (Option Text) := do
  return (← Action.read path).bind heading?

/-- The link at a point that names something. -/
def linkNaming? (text : Text) (point : Point) : Option Link :=
  (Link.atPoint? text point).filter fun link => Text.trim link.text ≠ []

/-- The documents that the link at a point leads to. When there is none, the note it asks for may be
created. -/
def definitionsFor (workspace : Workspace) (document : Path) (text : Text) (point : Point)
    (settings : Settings) : Action σ (Except NoteError (List Path)) := do
  match linkNaming? text point with
  | none => return .ok []
  | some link =>
    let notes ← workspace.notes settings
    if ← Action.cancelled then return .ok []
    let matcher := workspace.matcher settings
    match ← matcher.documents Action.isFile link.text (some document) notes with
    | [] => return (← createMissingNote link.text document settings).map Option.toList
    | found => return .ok found

/-- What a search for references looks for. -/
structure Sought where
  /-- The text of the link. -/
  text : Text
  /-- The documents it leads to, when links are compared by these too. -/
  targets : List Path

/-- Whether a link in a note names the sought note: by its text, else by a document that both lead
to. -/
def refersTo (workspace : Workspace) (settings : Settings) (notes : List Path) (sought : Sought)
    (note : Path) (text : Text) (resolver : Resolver) : Action σ (Bool × Resolver) := do
  if Note.namesMatch text sought.text then return (true, resolver)
  if sought.targets = [] then return (false, resolver)
  let (found, resolver) ←
    resolver.resolve (workspace.matcher settings) Action.isFile text note notes
  return (found.any fun path => sought.targets.any path.same, resolver)

/-- The ranges of those links of a note that name the sought note. -/
def rangesIn (workspace : Workspace) (settings : Settings) (notes : List Path) (sought : Sought)
    (note : Path) : List Link.Occurrence → Resolver → Action σ (List TextRange × Resolver)
  | [], resolver => return ([], resolver)
  | occurrence :: rest, resolver => do
    let (refers, resolver) ←
      workspace.refersTo settings notes sought note occurrence.text resolver
    let (ranges, resolver) ← workspace.rangesIn settings notes sought note rest resolver
    return (if refers then occurrence.range :: ranges else ranges, resolver)

/-- The places in some notes that name the sought note; nothing when cancelled before one of the
notes. Notes that cannot be read are passed over. -/
def placesIn (workspace : Workspace) (settings : Settings) (notes : List Path) (sought : Sought) :
    List Path → Resolver → Action σ (Option (List (Path × TextRange)))
  | [], _ => return some []
  | note :: rest, resolver => do
    if ← Action.cancelled then return none
    match ← Action.read note with
    | none => workspace.placesIn settings notes sought rest resolver
    | some content =>
      let (ranges, resolver) ←
        workspace.rangesIn settings notes sought note (Link.scan content) resolver
      return (← workspace.placesIn settings notes sought rest resolver).map
        (ranges.map (note, ·) ++ ·)

/-- All links of the workspace that name the same note as the link at a point, each with the range
of its token. Under relative paths one text means different files in different directories, so links
are compared by what they lead to as well. -/
def referencesFor (workspace : Workspace) (document : Path) (text : Text) (point : Point)
    (settings : Settings) : Action σ (List (Path × TextRange)) := do
  match linkNaming? text point with
  | none => return []
  | some link =>
    let notes ← workspace.notes settings
    let targets ← match settings.convention with
      | .uniqueNames => pure []
      | .relativePaths =>
        (workspace.matcher settings).documents Action.isFile link.text (some document) notes
    return (← workspace.placesIn settings notes ⟨link.text, targets⟩ notes {}).getD []

end Workspace
end LinkedNotes
