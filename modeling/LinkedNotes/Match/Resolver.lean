import LinkedNotes.Match.Basic

/-!
# Matching many links

A search over a workspace matches many links against one list of notes. It keeps the keys of the
notes for each directory, and the answers for each directory and trimmed link text, so that no file
is asked for twice.
-/

namespace LinkedNotes

/-- What a search remembers. -/
structure Resolver where
  /-- Keys of the notes as seen from directories. -/
  keyMaps : List (List Component × Match.KeyMap) := []
  /-- Answers by directory and trimmed link text. -/
  answers : List ((List Component × Text) × List Path) := []

namespace Resolver

/-- The keys as seen from a directory, made once. -/
def keyMap (resolver : Resolver) (base : Path) (notes : List Path) :
    Match.KeyMap × Resolver :=
  match resolver.keyMaps.lookup base.components with
  | some keys => (keys, resolver)
  | none =>
    let keys := Match.keyMap base notes
    (keys, { resolver with keyMaps := (base.components, keys) :: resolver.keyMaps })

/-- The notes that a text names by its path from the linking note, else from the root, with the
remembered keys. -/
def relativeNotes (resolver : Resolver) (matcher : Matcher) (raw : Text) (source : Path)
    (notes : List Path) : List Path × Resolver :=
  let wanted := Match.wantedKeys raw
  let (near, resolver) := match source.parent? with
    | some dir =>
      let (keys, resolver) := resolver.keyMap dir notes
      (Match.lookup keys wanted, resolver)
    | none => ([], resolver)
  if near ≠ [] then (near, resolver)
  else
    let (keys, resolver) := resolver.keyMap matcher.root notes
    (Match.lookup keys wanted, resolver)

/-- The documents that a text names, found with the remembered keys. -/
def find {m : Type → Type} [Monad m] (resolver : Resolver) (matcher : Matcher)
    (isFile : Path → m Bool) (raw : Text) (source : Path) (notes : List Path) :
    m (List Path × Resolver) :=
  if Text.trim raw = [] then pure ([], resolver)
  else match matcher.convention with
    | .uniqueNames => do
      return (← matcher.documents isFile raw (some source) notes, resolver)
    | .relativePaths =>
      match resolver.relativeNotes matcher raw source notes with
      | ([], resolver) => do return (← Matcher.literalFile isFile raw (some source), resolver)
      | (found, resolver) => pure (found, resolver)

/-- What an answer depends on: the directory of the linking note, the root if it has none, and the
trimmed link text. -/
def answerKey (matcher : Matcher) (raw : Text) (source : Path) : List Component × Text :=
  ((source.parent?.getD matcher.root).components, Text.trim raw)

/-- The documents that a text names when it is written in `source`, remembered for later. -/
def resolve {m : Type → Type} [Monad m] (resolver : Resolver) (matcher : Matcher)
    (isFile : Path → m Bool) (raw : Text) (source : Path) (notes : List Path) :
    m (List Path × Resolver) :=
  let key := answerKey matcher raw source
  match resolver.answers.lookup key with
  | some found => pure (found, resolver)
  | none => do
    let (found, resolver) ← resolver.find matcher isFile raw source notes
    return (found, { resolver with answers := (key, found) :: resolver.answers })

end Resolver
end LinkedNotes
