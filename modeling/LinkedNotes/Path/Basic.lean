import LinkedNotes.Text.Basic

/-!
# Paths

A path is kept as the text it was written with. What it names is given by its components: the text
between slashes, without empty pieces and without `.` after the first place. Two paths are the same
when their components are, and paths are ordered by components. Operations that take a path apart
keep the spelling of the part that stays.
-/

namespace LinkedNotes

/-- One step of a path. -/
inductive Component where
  /-- The leading slash of an absolute path. -/
  | root
  /-- A `.` at the start of a relative path. -/
  | here
  /-- A `..`, up one directory. -/
  | up
  /-- The name of a file or directory. -/
  | name (text : Text)
  deriving DecidableEq, Repr

namespace Component

/-- Position of a kind of component in the order. -/
def rank : Component → Nat
  | root => 0
  | here => 1
  | up => 2
  | name _ => 3

/-- Order of components: by kind, names by their octets. -/
def le : Component → Component → Bool
  | name s, name t => Text.le s t
  | a, b => a.rank ≤ b.rank

/-- How a component is written. -/
def text : Component → Text
  | root => ['/']
  | here => ['.']
  | up => ['.', '.']
  | name t => t

/-- The component that a piece between slashes stands for, if any; only a `.` at the start of a
relative path counts. -/
def ofPiece? (piece : Text) : Option Component :=
  if piece = [] ∨ piece = ['.'] then none
  else if piece = ['.', '.'] then some up
  else some (name piece)

end Component

/-- A path as it was written. -/
structure Path where
  /-- The spelling of the path. -/
  text : Text
  deriving DecidableEq, Repr

namespace Path

/-- Components of a text of pieces and slashes, without a look at its first place. -/
def pieceComponents (text : Text) : List Component :=
  (Text.splitOn '/' text).filterMap Component.ofPiece?

/-- What a path names, step by step. -/
def components (path : Path) : List Component :=
  match path.text with
  | '/' :: rest => .root :: pieceComponents rest
  | '.' :: [] => [.here]
  | '.' :: '/' :: rest => .here :: pieceComponents rest
  | text => pieceComponents text

/-- Whether two paths have the same components. -/
def same (p q : Path) : Bool :=
  p.components = q.components

/-- Lexicographic order of component lists. -/
def leComponents : List Component → List Component → Bool
  | [], _ => true
  | _ :: _, [] => false
  | a :: s, b :: t => if a = b then leComponents s t else a.le b

/-- Order of paths by components. -/
def le (p q : Path) : Bool :=
  leComponents p.components q.components

/-- Whether a path starts at the root. -/
def isAbsolute (path : Path) : Bool :=
  path.text.head? = some '/'

/-- A path that is written with the given components. -/
def ofComponents : List Component → Path
  | .root :: rest => ⟨'/' :: Text.joinWith ['/'] (rest.map Component.text)⟩
  | parts => ⟨Text.joinWith ['/'] (parts.map Component.text)⟩

/-- A path followed from a directory. An absolute path stands for itself. -/
def join (dir path : Path) : Path :=
  if path.isAbsolute then path
  else if dir.text = [] ∨ dir.text.getLast? = some '/' then ⟨dir.text ++ path.text⟩
  else ⟨dir.text ++ ['/'] ++ path.text⟩

/-- A reversed spelling without the slashes and `.` pieces that add no component at its end. A
slash or a `.` that is the whole of what is left stays. -/
def trimReversed : Text → Text
  | '/' :: rest => if rest = [] then ['/'] else trimReversed rest
  | '.' :: '/' :: rest => trimReversed ('/' :: rest)
  | text => text

/-- A spelling without the slashes and `.` pieces that add no component at its end. -/
def trimEnd (text : Text) : Text :=
  (trimReversed text.reverse).reverse

/-- A spelling inside a path without the slashes and `.` pieces at its start. -/
def trimStart : Text → Text
  | '/' :: rest => trimStart rest
  | '.' :: '/' :: rest => trimStart rest
  | ['.'] => []
  | text => text

/-- A spelling inside a path without its first components and what stands around them. -/
def dropPieces : Nat → Text → Text
  | 0, text => trimStart text
  | n + 1, text => dropPieces n ((trimStart text).dropWhile (· ≠ '/'))

/-- The directory that holds a path: the path without its last component. The root and the empty
path have none. -/
def parent? (path : Path) : Option Path :=
  match path.components.getLast? with
  | none => none
  | some .root => none
  | some _ =>
    let kept := (trimReversed path.text.reverse).dropWhile (· ≠ '/')
    some ⟨(trimReversed kept).reverse⟩

/-- What is left of a path after the components of another one at its start. -/
def stripPrefix? (path base : Path) : Option Path :=
  if base.components.isPrefixOf path.components then
    match base.components with
    | [] => some ⟨trimEnd path.text⟩
    | .root :: more => some ⟨trimEnd (dropPieces more.length (path.text.drop 1))⟩
    | .here :: more => some ⟨trimEnd (dropPieces more.length (path.text.drop 1))⟩
    | parts => some ⟨trimEnd (dropPieces parts.length path.text)⟩
  else none

/-- The name of the file or directory that a path ends in. -/
def fileName? (path : Path) : Option Text :=
  match path.components.getLast? with
  | some (.name text) => some text
  | _ => none

/-- What follows the last dot of a file name, unless the dot comes first. -/
def extension? (path : Path) : Option Text := do
  let name ← path.fileName?
  let reversed := name.reverse
  match reversed.dropWhile (· ≠ '.') with
  | [] => none
  | [_] => none
  | _ => some (reversed.takeWhile (· ≠ '.')).reverse

end Path
end LinkedNotes
