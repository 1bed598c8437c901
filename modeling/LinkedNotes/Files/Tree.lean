import LinkedNotes.Files.Basic
import LinkedNotes.Pattern.Ignore

/-!
# Trees of files

A file system with directories and symbolic links, and perhaps a git repository. Paths are followed
step by step, links included; the names that lead to a place without links are its real path. The
files below a directory are found through links too, but a link back to a directory above itself is
not followed.
-/

namespace LinkedNotes

/-- What a name in a directory stands for. -/
inductive Entry where
  /-- A file; without a text when its octets are no text. -/
  | file (content : Option Text)
  | directory
  /-- A symbolic link. -/
  | link (target : Text)
  deriving DecidableEq, Repr

/-- Why the system refuses an operation. -/
inductive FileError where
  | notFound
  | exists
  | notDirectory
  | isDirectory
  | nameTooLong
  | tooManyLinks
  deriving DecidableEq, Repr

namespace FileError

/-- The message of the system. -/
def message : FileError → Text
  | .notFound => "No such file or directory (os error 2)".toList
  | .exists => "File exists (os error 17)".toList
  | .notDirectory => "Not a directory (os error 20)".toList
  | .isDirectory => "Is a directory (os error 21)".toList
  | .nameTooLong => "File name too long (os error 36)".toList
  | .tooManyLinks => "Too many levels of symbolic links (os error 40)".toList

end FileError

/-- The names that lead from the root to a place. -/
abbrev RealPath := List Text

/-- A tree of files. -/
structure FileTree where
  /-- The entries by their real paths; the root is a directory without an entry. -/
  entries : List (RealPath × Entry) := []
  /-- Where a git repository is. -/
  repository : Option RealPath := none
  deriving Repr

namespace FileTree

/-- What is at a real path. -/
def entry? (tree : FileTree) (real : RealPath) : Option Entry :=
  if real = [] then some .directory else tree.entries.lookup real

/-- The tree with another entry at a real path. -/
def set (tree : FileTree) (real : RealPath) (entry : Entry) : FileTree :=
  { tree with entries := (real, entry) :: tree.entries.filter (·.1 ≠ real) }

/-- The tree without what is at a real path. -/
def erase (tree : FileTree) (real : RealPath) : FileTree :=
  { tree with entries := tree.entries.filter (·.1 ≠ real) }

/-- Where a path leads. -/
inductive Place where
  /-- To an entry. -/
  | present (real : RealPath) (entry : Entry)
  /-- To a name that a directory does not have. -/
  | absent (real : RealPath)

/-- Longest name of a file in octets. -/
def nameLimit : Nat := 255

/-- Steps after which a path counts as a circle of links. -/
def stepLimit : Nat := 4096

/-- Follows components from a place. `last` tells whether a link at the very end is followed. -/
def follow (tree : FileTree) (last : Bool) :
    Nat → RealPath → List Component → Except FileError Place
  | _, real, [] =>
    match tree.entry? real with
    | some entry => .ok (.present real entry)
    | none => .ok (.absent real)
  | 0, _, _ :: _ => .error .tooManyLinks
  | fuel + 1, real, part :: rest =>
    if tree.entry? real ≠ some .directory then .error .notDirectory
    else match part with
      | .root => follow tree last fuel [] rest
      | .here => follow tree last fuel real rest
      | .up => follow tree last fuel real.dropLast rest
      | .name name =>
        if nameLimit < Text.size name then .error .nameTooLong
        else
          let next := real ++ [name]
          match tree.entry? next with
          | none => if rest.isEmpty then .ok (.absent next) else .error .notFound
          | some (.link target) =>
            if rest.isEmpty && !last then .ok (.present next (.link target))
            else follow tree last fuel real ((Path.mk target).components ++ rest)
          | some _ => follow tree last fuel next rest

/-- Where a path leads, links included. -/
def place (tree : FileTree) (path : Path) : Except FileError Place :=
  tree.follow true stepLimit [] path.components

/-- Whether a path leads to a directory. -/
def isDirectory (tree : FileTree) (path : Path) : Bool :=
  match tree.place path with
  | .ok (.present _ .directory) => true
  | _ => false

/-- Makes one directory in a directory that is there. -/
def makeDirectory (tree : FileTree) (path : Path) : Except FileError FileTree :=
  match tree.follow false stepLimit [] path.components with
  | .error e => .error e
  | .ok (.present _ _) => .error .exists
  | .ok (.absent real) => .ok (tree.set real .directory)

/-- Makes a directory with those above it that are missing. A directory that is there is left as it
is. What was made before a failure stays. The fuel bounds the number of directories. -/
def makeDirectories (tree : FileTree) : Nat → Path → Except FileError Unit × FileTree
  | 0, _ => (.error .notFound, tree)
  | fuel + 1, path =>
    if path.text = [] then (.ok (), tree)
    else match tree.makeDirectory path with
      | .ok made => (.ok (), made)
      | .error .notFound =>
        match path.parent? with
        | none => (.error .notFound, tree)
        | some above =>
          match tree.makeDirectories fuel above with
          | (.error e, tree) => (.error e, tree)
          | (.ok (), tree) =>
            match tree.makeDirectory path with
            | .ok made => (.ok (), made)
            | .error e => (if tree.isDirectory path then .ok () else .error e, tree)
      | .error e => (if tree.isDirectory path then .ok () else .error e, tree)

/-- Writes a file into a directory that is there. -/
def writeFile (tree : FileTree) (path : Path) (content : Option Text) :
    Except FileError Unit × FileTree :=
  match tree.place path with
  | .error e => (.error e, tree)
  | .ok (.present _ .directory) => (.error .isDirectory, tree)
  | .ok (.present real _) => (.ok (), tree.set real (.file content))
  | .ok (.absent real) => (.ok (), tree.set real (.file content))

/-- Writes a file with the directories above it. -/
def create (tree : FileTree) (path : Path) (content : Option Text) :
    Except FileError Unit × FileTree :=
  match path.parent? with
  | none => tree.writeFile path content
  | some above =>
    match tree.makeDirectories (above.components.length + 1) above with
    | (.error e, tree) => (.error e, tree)
    | (.ok (), tree) => tree.writeFile path content

/-- The names in a directory. -/
def namesIn (tree : FileTree) (real : RealPath) : List Text :=
  tree.entries.filterMap fun (other, _) =>
    if other.dropLast = real then other.getLast? else none

/-- The notes below a directory. `above` are the real paths of the directory and of those through
which it was reached; a link to one of them is not followed. The fuel bounds the depth. -/
def notesBelow (tree : FileTree) : Nat → Path → RealPath → List RealPath → List Path
  | 0, _, _, _ => []
  | fuel + 1, shown, real, above =>
    (tree.namesIn real).flatMap fun name =>
      let path := shown.join ⟨name⟩
      let found := tree.entry? (real ++ [name])
      match found, tree.follow true stepLimit real [.name name] with
      | _, .ok (.present _ (.file _)) => if Note.isNotePath path then [path] else []
      | some (.link _), .ok (.present next .directory) =>
        if above.contains next then [] else notesBelow tree fuel path next (next :: above)
      | _, .ok (.present next .directory) => notesBelow tree fuel path next (next :: above)
      | _, _ => []

/-- The notes below a path, which may be a single file. -/
def notes (tree : FileTree) (root : Path) : List Path :=
  match tree.place root with
  | .ok (.present _ (.file _)) => if Note.isNotePath root then [root] else []
  | .ok (.present real .directory) =>
    tree.notesBelow ((tree.entries.length + 1) * (tree.entries.length + 1)) root real [real]
  | _ => []

/-- Name of the files that hold ignore rules. -/
def ignoreFileName : Text := ".gitignore".toList

/-- The ignore rules in a directory of a repository. -/
def rulesIn (tree : FileTree) (repository dir : RealPath) : List Ignore.Rule :=
  match tree.entry? (repository ++ dir ++ [ignoreFileName]) with
  | some (.file (some content)) => Ignore.rulesOf content
  | _ => []

/-- Whether a directory on the way to a path is a link. -/
def beyondLink (tree : FileTree) (repository path : RealPath) : Bool :=
  (List.range path.length).any fun n =>
    match tree.entry? (repository ++ path.take n) with
    | some (.link _) => true
    | _ => false

/-- Those of the paths below a directory that the repository ignores. Git fails outside of a
repository, and on a path that leads through a link. -/
def ignoredBelow (tree : FileTree) (root : Path) (paths : List Text) : Option (List Text) := do
  let repository ← tree.repository
  match tree.place root with
  | .ok (.present real .directory) =>
    if !repository.isPrefixOf real then none
    else
      let below := real.drop repository.length
      let full (path : Text) := below ++ Text.splitOn '/' path
      if paths.any fun path => tree.beyondLink repository (full path) then none
      else some (paths.filter fun path => Ignore.ignored (tree.rulesIn repository) (full path))
  | _ => none

instance : FileSystem FileTree where
  read tree path :=
    match tree.place path with
    | .ok (.present _ (.file content)) => content
    | _ => none
  isFile tree path :=
    match tree.place path with
    | .ok (.present _ (.file _)) => true
    | _ => false
  create tree path content :=
    match tree.create path (some content) with
    | (.ok (), tree) => (.ok (), tree)
    | (.error e, tree) => (.error e.message, tree)
  list := FileTree.notes
  ignored := FileTree.ignoredBelow

end FileTree
end LinkedNotes
