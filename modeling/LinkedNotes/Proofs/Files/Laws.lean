import LinkedNotes.Files.Memory
import LinkedNotes.Proofs.Match.Documents
import LinkedNotes.Proofs.Path.Normal
import LinkedNotes.Workspace.Discovery

/-!
# Laws of file systems

What operations rely on when they create files. Main statement: the files in memory satisfy the
laws. A tree of files does not, since a link may give a file two clean paths, and since directories
may be made on the way to a file that cannot be created.
-/

namespace LinkedNotes

namespace FileSystem

variable {σ : Type} [FileSystem σ]

/-- Whether a file that cannot be created leaves the files as they are. -/
def CreatesOrKeeps (files : σ) : Prop :=
  ∀ path content message after,
    create files path content = (.error message, after) → after = files

/-- Whether a file that is created is there afterwards. -/
def ShowsCreated (files : σ) : Prop :=
  ∀ path content after,
    create files path content = (.ok (), after) → isFile after path = true

/-- The paths of the notes below a root, as git is asked about them. -/
def asked (root : Path) (files : σ) : List Text :=
  Discovery.textsBelow root (list files root)

/-- Whether git answers for each note below a root on its own. -/
def GitAnswers (root : Path) (files : σ) (ignores : Text → Bool) : Prop :=
  ∀ paths, paths ⊆ asked root files → ∃ answer, ignored files root paths = some answer ∧
    ∀ path, path ∈ answer ↔ path ∈ paths ∧ ignores path = true

/-- Whether git fails on the notes below a root. -/
def GitFails (root : Path) (files : σ) : Prop :=
  ∀ paths, paths ⊆ asked root files → ignored files root paths = none

/-- Whether git ignores the same notes below a root in two states of the files, or fails in both. -/
def GitAgrees (root : Path) (files after : σ) : Prop :=
  GitFails root files ∧ GitFails root after ∨
    ∃ ignores, GitAnswers root files ignores ∧ GitAnswers root after ignores

/-- Whether one state of the files, as seen from a root, has one note more than another. -/
structure Adds (root : Path) (files : σ) (path : Path) (content : Text) (after : σ) : Prop where
  /-- No clean path but that of the file comes to name a file. -/
  isFile : ∀ other, other.IsClean →
    (isFile after other = true ↔ other.same path = true ∨ isFile files other = true)
  /-- The file has its text. -/
  read : read after path = some content
  /-- At most the file is listed in addition. -/
  list : (list after root).Perm (list files root) ∨
    ∃ listed, listed.same path = true ∧ (list after root).Perm (listed :: list files root)
  /-- Git ignores the notes that it ignored before. -/
  git : GitAgrees root files after

/-- What is asked of files below a root: different clean paths are different files. -/
structure Lexical (root : Path) (files : σ) : Prop where
  /-- The spelling of a path does not matter. -/
  same : ∀ path other, path.same other = true → isFile files path = isFile files other
  /-- What is listed is a file. -/
  listed : ∀ path ∈ list files root, isFile files path = true
  /-- A file that cannot be created changes nothing. -/
  failed : CreatesOrKeeps files
  /-- A note that is created is added. -/
  created : ∀ path content after, path.IsClean → Note.isNotePath path = true →
    isFile files path = false → create files path content = (.ok (), after) →
      Adds root files path content after

/-- What is asked of files that several operations write: a file that is created is there with its
text, in the place of an old one if there was one. -/
structure Replaces (σ : Type) [FileSystem σ] : Prop where
  /-- No file but the new one comes or goes. -/
  isFile : ∀ {files after : σ} {path : Path} {content : Text},
    create files path content = (.ok (), after) → ∀ other,
      FileSystem.isFile after other = true ↔
        other.same path = true ∨ FileSystem.isFile files other = true
  /-- Only the text of the new one changes. -/
  read : ∀ {files after : σ} {path : Path} {content : Text},
    create files path content = (.ok (), after) → ∀ other,
      FileSystem.read after other =
        if other.same path = true then some content else FileSystem.read files other
  /-- A file that cannot be created changes nothing. -/
  failed : ∀ files : σ, CreatesOrKeeps files

end FileSystem

deriving instance DecidableEq for MemoryFiles

namespace MemoryFiles

open FileSystem

/-- Files in memory stay as they are when creating files is switched off. -/
theorem createsOrKeeps (store : MemoryFiles) : CreatesOrKeeps store := by
  intro path content message after h
  simp only [create] at h
  split at h
  · exact (congrArg Prod.snd h).symm
  · cases congrArg Prod.fst h

/-- A path names a file that is known in some spelling. -/
theorem isFile_iff {store : MemoryFiles} {path : Path} :
    isFile store path = true ↔ ∃ file ∈ store.files, file.1.same path = true := by
  simp only [isFile, file?, Option.isSome_map, List.find?_isSome]

/-- What is listed are the paths of the notes below the directory. -/
theorem list_perm (store : MemoryFiles) (root : Path) :
    (list store root).Perm
      ((store.files.map (·.1)).filter fun path => below root path && Note.isNotePath path) :=
  List.mergeSort_perm _ _

/-- A file that is not known is put behind the others. -/
theorem put_of_not_same {files : List (Path × Option Text)} {path : Path}
    (h : ∀ file ∈ files, ¬file.1.same path = true) (content : Option Text) :
    put path content files = files ++ [(path, content)] := by
  induction files with
  | nil => rfl
  | cons first rest ih =>
    obtain ⟨hfirst, hrest⟩ := List.forall_mem_cons.mp h
    rw [put, if_neg hfirst, ih hrest, List.cons_append]

/-- A file that is created where none is stands behind the others. -/
theorem files_of_create {store after : MemoryFiles} {path : Path} {content : Text}
    (habsent : isFile store path = false) (h : create store path content = (.ok (), after)) :
    after.files = store.files ++ [(path, some content)] := by
  have hother : ∀ file ∈ store.files, ¬file.1.same path = true := fun file hfile hsame => by
    rw [isFile_iff.mpr ⟨file, hfile, hsame⟩] at habsent
    cases habsent
  simp only [create] at h
  split at h
  · cases congrArg Prod.fst h
  · obtain rfl : store.write path (some content) = after := congrArg Prod.snd h
    exact put_of_not_same hother (some content)

/-- Only a file that is created is added. -/
theorem adds_of_create (root : Path) {store after : MemoryFiles} {path : Path} {content : Text}
    (habsent : isFile store path = false) (h : create store path content = (.ok (), after)) :
    Adds root store path content after := by
  have hfiles := files_of_create habsent h
  refine ⟨fun other _ => ?_, ?_, ?_, .inl ⟨fun _ _ => rfl, fun _ _ => rfl⟩⟩
  · simp only [isFile_iff, hfiles, List.mem_append, List.mem_singleton, or_and_right, exists_or,
      exists_eq_left, Path.same_iff]
    rw [or_comm, eq_comm]
  · have hself := path.same_self
    have hnone : store.files.find? (·.1.same path) = none := by
      simpa [isFile, file?] using habsent
    simp [FileSystem.read, file?, hfiles, List.find?_append, hnone, hself]
  · have hafter := list_perm after root
    have hbefore := list_perm store root
    rw [hfiles, List.map_append, List.filter_append] at hafter
    by_cases hnote : (below root path && Note.isNotePath path) = true
    · right
      simp only [List.map_singleton, List.filter_cons, hnote, if_true, List.filter_nil] at hafter
      refine ⟨path, path.same_self, hafter.trans ?_⟩
      exact (List.perm_append_singleton _ _).trans (hbefore.symm.cons path)
    · left
      simp only [List.map_singleton, List.filter_cons, hnote, Bool.false_eq_true, if_false,
        List.filter_nil, List.append_nil] at hafter
      exact hafter.trans hbefore.symm

/-- Files in memory are told apart by their clean paths. -/
theorem lexical (root : Path) (store : MemoryFiles) : Lexical root store where
  same := fun path other h => by
    rw [Bool.eq_iff_iff, isFile_iff, isFile_iff]
    simp only [Path.same_iff, Path.same_iff.mp h]
  listed := fun path hpath => by
    have hmem := (List.mem_filter.mp ((list_perm store root).mem_iff.mp hpath)).1
    obtain ⟨file, hfile, rfl⟩ := List.mem_map.mp hmem
    exact isFile_iff.mpr ⟨file, hfile, file.1.same_self⟩
  failed := store.createsOrKeeps
  created := fun path content after _ _ habsent h => adds_of_create root habsent h

/-- Putting a file changes what is at its path and at no other. -/
theorem find?_put (path : Path) (content : Option Text) (files : List (Path × Option Text))
    (other : Path) :
    ((put path content files).find? (·.1.same other)).map (·.2) =
      if other.same path = true then some content
      else (files.find? (·.1.same other)).map (·.2) := by
  have hcomm : path.same other = other.same path := by
    rw [Bool.eq_iff_iff, Path.same_iff, Path.same_iff, eq_comm]
  induction files with
  | nil => cases hsame : other.same path <;> simp [put, hcomm, hsame]
  | cons first rest ih =>
    rw [put]
    by_cases hfirst : first.1.same path = true
    · -- The first file keeps its spelling, which the other path may have as well.
      have hother : first.1.same other = other.same path := by
        rw [Bool.eq_iff_iff, Path.same_iff, Path.same_iff, Path.same_iff.mp hfirst, eq_comm]
      rw [if_pos hfirst]
      cases hsame : other.same path <;> simp [hother, hsame]
    · rw [if_neg hfirst]
      by_cases hother : first.1.same other = true
      · have hne : ¬other.same path = true := fun hsame =>
          hfirst (Path.same_iff.mpr ((Path.same_iff.mp hother).trans (Path.same_iff.mp hsame)))
        simp [hother, hne]
      · simpa [List.find?_cons, hother] using ih

/-- Files in memory replace each other. -/
theorem replaces : Replaces MemoryFiles where
  isFile := fun {files after path content} h other => by
    simp only [create] at h
    split at h
    · cases congrArg Prod.fst h
    · obtain rfl : files.write path (some content) = after := congrArg Prod.snd h
      simp only [FileSystem.isFile, file?, write, find?_put]
      cases other.same path <;> simp
  read := fun {files after path content} h other => by
    simp only [create] at h
    split at h
    · cases congrArg Prod.fst h
    · obtain rfl : files.write path (some content) = after := congrArg Prod.snd h
      simp only [FileSystem.read, file?, write, find?_put]
      cases other.same path <;> simp
  failed := createsOrKeeps

/-- Files in memory show every file that is created. -/
theorem showsCreated (store : MemoryFiles) : ShowsCreated store :=
  fun path _ _ h => (replaces.isFile h path).mpr (.inl path.same_self)

end MemoryFiles
end LinkedNotes
