import LinkedNotes.Pattern.Glob
import LinkedNotes.Settings.Basic
import LinkedNotes.Workspace.Session

/-!
# Finding notes

The notes of a workspace are the files with a note extension below its root, without those that an
exclude pattern matches and, if asked for, without those that git ignores. The exclude patterns are
made into one set; when that fails, no note is left out by them. Git is asked about a limited number
of paths at a time; where it fails, the paths of that time are kept.
-/

namespace LinkedNotes.Discovery

variable {σ : Type}

/-- Number of paths that git is asked about at a time. -/
def chunkSize : Nat := 200

/-- A list cut into chunks of a size. The fuel bounds the number of chunks. -/
def chunksOf {α : Type} (size : Nat) : Nat → List α → List (List α)
  | 0, _ => []
  | _, [] => []
  | fuel + 1, items => items.take size :: chunksOf size fuel (items.drop size)

/-- A list cut into the chunks that git is asked about. -/
def chunks {α : Type} (items : List α) : List (List α) :=
  chunksOf chunkSize items.length items

/-- What an enumeration takes from its host: the library that matches globs, and the names of files,
which need not be texts. -/
class Host where
  /-- Whether the library makes some valid globs into one set. -/
  builds : List (List Glob.Piece) → Bool
  /-- The octets of a path, with which globs are matched. -/
  octets : Path → List Octet
  /-- A path as a text for git; what is no text in it is replaced. -/
  toText : Path → Text
  /-- The path that a text of git names. -/
  ofText : Text → Path

/-- All names are texts, and only globs that are nested too deep make a set fail. -/
instance : Host where
  builds globs := globs.all Glob.fits
  octets path := path.text.octets
  toText := Path.text
  ofText := Path.mk

variable [Host]

/-- The set of the valid ones of some exclude patterns, unless the library fails to build it. -/
def buildExcludes? (patterns : List Text) : Option (List (List Glob.Piece)) :=
  let globs := Glob.valid patterns
  if Host.builds globs then some globs else none

/-- The globs that leave notes out; none when their set cannot be built. -/
def excludes (settings : IndexSettings) : List (List Glob.Piece) :=
  (buildExcludes? settings.exclude).getD []

/-- A path as it is matched with patterns: below the root if it is there. -/
def fromRoot (root note : Path) : Path :=
  (note.stripPrefix? root).getD note

/-- The notes that no exclude pattern matches. -/
def included (root : Path) (settings : IndexSettings) (notes : List Path) : List Path :=
  let globs := excludes settings
  notes.filter fun note => !globs.any (Glob.matchesOctets · (Host.octets (fromRoot root note)))

/-- The paths below the root that git ignores, asked chunk by chunk; nothing when cancelled before
one of them. -/
def ignoredChunks [FileSystem σ] (root : Path) : List (List Text) → Action σ (Option (List Path))
  | [] => return some []
  | chunk :: rest => do
    if ← Action.cancelled then return none
    let found := (← Action.gitIgnored root chunk).getD []
    return (← ignoredChunks root rest).map
      ((found.map fun text => root.join (Host.ofText text)) ++ ·)

/-- The paths below the root, as git is asked about them. -/
def textsBelow (root : Path) (notes : List Path) : List Text :=
  notes.filterMap fun note => (note.stripPrefix? root).map Host.toText

/-- The notes that git does not ignore, unless cancelled. -/
def keptByGit [FileSystem σ] (root : Path) (notes : List Path) :
    Action σ (Option (List Path)) := do
  return (← ignoredChunks root (chunks (textsBelow root notes))).map fun ignored =>
    notes.filter fun note => !ignored.any (·.same note)

/-- All notes below the root in order, unless cancelled, so that no part of the list is ever taken
for the whole. -/
def notes [FileSystem σ] (root : Path) (settings : IndexSettings) :
    Action σ (Option (List Path)) := do
  if ← Action.cancelled then return none
  let listed ← Action.list root
  if ← Action.cancelled then return none
  let candidates := included root settings listed
  let kept ← if settings.respectGitignore && !candidates.isEmpty then keptByGit root candidates
    else pure (some candidates)
  return kept.map (·.mergeSort Path.le)

end LinkedNotes.Discovery
