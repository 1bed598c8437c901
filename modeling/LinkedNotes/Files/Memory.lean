import LinkedNotes.Files.Basic

/-!
# Files in memory

A file system that only holds files: a path names a file exactly when it is the same path as that of
a file, and there are no directories and no git. Creating files can be switched off.
-/

namespace LinkedNotes

/-- A file system in memory. -/
structure MemoryFiles where
  /-- The files with their texts; a file without a text cannot be read. -/
  files : List (Path × Option Text)
  /-- The message of a failure to create any file, while that is switched off. -/
  denied : Option Text := none
  deriving Repr

namespace MemoryFiles

/-- The file at a path. -/
def file? (store : MemoryFiles) (path : Path) : Option (Option Text) :=
  (store.files.find? (·.1.same path)).map (·.2)

/-- The files with one of them written; a known file keeps the spelling of its path. -/
def put (path : Path) (content : Option Text) :
    List (Path × Option Text) → List (Path × Option Text)
  | [] => [(path, content)]
  | (other, old) :: rest =>
    if other.same path then (other, content) :: rest else (other, old) :: put path content rest

/-- The store with one file written. -/
def write (store : MemoryFiles) (path : Path) (content : Option Text) : MemoryFiles :=
  { store with files := put path content store.files }

/-- The store without one file. -/
def remove (store : MemoryFiles) (path : Path) : MemoryFiles :=
  { store with files := store.files.filter (!·.1.same path) }

/-- Whether a path lies below a directory. -/
def below (dir path : Path) : Bool :=
  dir.components.isPrefixOf path.components

instance : FileSystem MemoryFiles where
  read store path := (store.file? path).join
  isFile store path := (store.file? path).isSome
  create store path content :=
    match store.denied with
    | some message => (.error message, store)
    | none => (.ok (), store.write path (some content))
  list store dir :=
    ((store.files.map (·.1)).filter fun path => below dir path && Note.isNotePath path).mergeSort
      fun p q => Path.le q p
  ignored _ _ _ := none

end MemoryFiles
end LinkedNotes
