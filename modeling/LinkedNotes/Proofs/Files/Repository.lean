import LinkedNotes.Files.Tree
import LinkedNotes.Proofs.Files.Laws

/-!
# Files in a repository

Files in memory that are kept under git: each directory can be asked about as a repository, and the
ignore files among the files say what git ignores. Main statement: these files satisfy the laws with
a git that answers, since a note that is created is no ignore file.
-/

namespace LinkedNotes

/-- Files in memory that are kept under git. -/
structure RepositoryFiles where
  /-- The files, ignore files among them. -/
  store : MemoryFiles

namespace RepositoryFiles

/-- The ignore file of a directory below a root. -/
def ignoreFile (root : Path) (dir : List Text) : Path :=
  (dir.foldl (fun path name => path.join ⟨name⟩) root).join ⟨FileTree.ignoreFileName⟩

/-- The ignore rules in a directory below a root. -/
def rulesIn (files : RepositoryFiles) (root : Path) (dir : List Text) : List Ignore.Rule :=
  match FileSystem.read files.store (ignoreFile root dir) with
  | some content => Ignore.rulesOf content
  | none => []

/-- Whether git ignores a path below a root. -/
def ignores (files : RepositoryFiles) (root : Path) (path : Text) : Bool :=
  Ignore.ignored (files.rulesIn root) (Text.splitOn '/' path)

instance : FileSystem RepositoryFiles where
  read files path := FileSystem.read files.store path
  isFile files path := FileSystem.isFile files.store path
  create files path content :=
    let (result, store) := FileSystem.create files.store path content
    (result, ⟨store⟩)
  list files root := FileSystem.list files.store root
  ignored files root paths := some (paths.filter (files.ignores root))

/-- A file is created among the files in memory. -/
theorem create_store {files after : RepositoryFiles} {path : Path} {content : Text}
    {result : Except Text Unit} (h : FileSystem.create files path content = (result, after)) :
    FileSystem.create files.store path content = (result, after.store) := by
  obtain ⟨hresult, rfl⟩ := Prod.mk.inj h
  exact Prod.ext hresult rfl

/-- Git answers for each path on its own. -/
theorem gitAnswers (files : RepositoryFiles) (root : Path) :
    FileSystem.GitAnswers root files (files.ignores root) :=
  fun _ _ => ⟨_, rfl, fun _ => List.mem_filter⟩

/-- Two spellings of a path are both those of a note or of none. -/
theorem isNotePath_eq_of_same {path other : Path} (h : path.same other = true) :
    Note.isNotePath path = Note.isNotePath other := by
  simp only [Note.isNotePath, Path.extension?, Path.fileName?, Path.same_iff.mp h]

/-- An ignore file is no note. -/
theorem isNotePath_ignoreFile (root : Path) (dir : List Text) :
    Note.isNotePath (ignoreFile root dir) = false := by
  have hname : (Component.name FileTree.ignoreFileName).IsPiece := by
    constructor <;> decide
  have hextension : (ignoreFile root dir).extension? = none := by
    rw [ignoreFile, Path.extension?, Path.fileName?_join_name _ hname]
    rfl
  rw [Note.isNotePath, hextension]

/-- Creating a note changes no ignore rules. -/
theorem ignores_create {files after : RepositoryFiles} {path : Path} {content : Text}
    (hnote : Note.isNotePath path = true)
    (h : FileSystem.create files path content = (.ok (), after)) (root : Path) :
    after.ignores root = files.ignores root := by
  have hrules : after.rulesIn root = files.rulesIn root := by
    funext dir
    have hother : ¬(ignoreFile root dir).same path = true := fun hsame => by
      have hnone := isNotePath_ignoreFile root dir
      rw [isNotePath_eq_of_same hsame, hnote] at hnone
      cases hnone
    rw [rulesIn, MemoryFiles.replaces.read (create_store h), if_neg hother, rulesIn]
  funext text
  rw [ignores, hrules, ignores]

/-- Files under git are told apart by their clean paths, and creating a note changes no answer of
git. -/
theorem lexical (root : Path) (files : RepositoryFiles) : FileSystem.Lexical root files where
  same := (MemoryFiles.lexical root files.store).same
  listed := (MemoryFiles.lexical root files.store).listed
  failed path content message after h :=
    congrArg mk (files.store.createsOrKeeps path content message after.store (create_store h))
  created path content after _ hnote habsent h := by
    obtain ⟨hfile, hread, hlist, -⟩ := MemoryFiles.adds_of_create root habsent (create_store h)
    refine ⟨hfile, hread, hlist, .inr ⟨files.ignores root, files.gitAnswers root, ?_⟩⟩
    rw [← ignores_create hnote h root]
    exact after.gitAnswers root

end RepositoryFiles
end LinkedNotes
