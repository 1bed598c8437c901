import LinkedNotes.Match.Label
import LinkedNotes.Note.Name
import LinkedNotes.Path.Clean
import LinkedNotes.Settings.Basic

/-!
# The documents that a link text names

Under unique names a link names the notes whose file names have its normal form. Under relative
paths it names the notes whose paths from the directory of the linking note have one of its keys,
else those whose paths from the root have. A link that names no note may still be the literal path
of a file next to the linking note, which need not be a note.
-/

namespace LinkedNotes

/-- Where and how links are matched. -/
structure Matcher where
  /-- The root of the workspace. -/
  root : Path
  /-- How link texts name notes. -/
  convention : NamingConvention
  deriving DecidableEq, Repr

namespace Match

/-- Notes with the normal forms of their paths from one directory. -/
abbrev KeyMap := List (Text × Path)

/-- The notes with their keys as seen from a directory. -/
def keyMap (base : Path) (notes : List Path) : KeyMap :=
  notes.map fun note => (Note.normalize (Path.relative base note).text, note)

/-- The keys that a link text asks for: its own normal form and, for a label with a directory, that
of the path that the label stands for. -/
def wantedKeys (raw : Text) : List Text :=
  Note.normalize raw ::
    match splitLabel? raw with
    | some (name, dir) => [Note.normalize (Text.dropEndWhile (· == '/') dir ++ ['/'] ++ name)]
    | none => []

/-- A list without those of its members that are the same path as the one before. -/
def dropRepeats : List Path → List Path
  | [] => []
  | [path] => [path]
  | path :: next :: rest =>
    if path.same next then
      match dropRepeats (next :: rest) with
      | [] => [path]
      | _ :: more => path :: more
    else path :: dropRepeats (next :: rest)

/-- The notes with one of the wanted keys, each path once and in order. -/
def lookup (keys : KeyMap) (wanted : List Text) : List Path :=
  let found := wanted.flatMap fun key => (keys.filter (·.1 = key)).map (·.2)
  dropRepeats (found.mergeSort Path.le)

end Match

namespace Matcher

/-- The notes that a text names by its path from the linking note, else from the root. -/
def relativeNotes (matcher : Matcher) (raw : Text) (source : Option Path) (notes : List Path) :
    List Path :=
  let wanted := Match.wantedKeys raw
  let near := match source.bind Path.parent? with
    | some dir => Match.lookup (Match.keyMap dir notes) wanted
    | none => []
  if near ≠ [] then near else Match.lookup (Match.keyMap matcher.root notes) wanted

/-- The notes that a text names. -/
def knownNotes (matcher : Matcher) (raw : Text) (source : Option Path) (notes : List Path) :
    List Path :=
  match matcher.convention with
  | .uniqueNames => notes.filter (Note.basenameMatches · raw)
  | .relativePaths => matcher.relativeNotes raw source notes

/-- The file that a text means when it is taken as a path next to the linking note. -/
def literalPath? (raw : Text) (source : Option Path) : Option Path := do
  let dir ← (← source).parent?
  return (dir.join ⟨Text.trim raw⟩).clean

/-- The literal path of a text as a list, if a file is there. -/
def literalFile {m : Type → Type} [Monad m] (isFile : Path → m Bool) (raw : Text)
    (source : Option Path) : m (List Path) :=
  match literalPath? raw source with
  | none => pure []
  | some path => do return if ← isFile path then [path] else []

/-- All documents that a text names when it is written in `source`. A blank text names none, and
files are only asked for when no note is found. -/
def documents {m : Type → Type} [Monad m] (matcher : Matcher) (isFile : Path → m Bool)
    (raw : Text) (source : Option Path) (notes : List Path) : m (List Path) :=
  if Text.trim raw = [] then pure []
  else match matcher.knownNotes raw source notes with
    | [] => literalFile isFile raw source
    | found => pure found

end Matcher
end LinkedNotes
