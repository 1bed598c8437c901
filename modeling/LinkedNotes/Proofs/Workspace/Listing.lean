import LinkedNotes.Proofs.Files.Laws
import LinkedNotes.Proofs.Workspace.Notes

/-!
# The notes after a file is created

An enumeration leaves notes out one by one, whether a pattern matches them or git ignores them, and
in whatever chunks git is asked. Main statement: after a file is created, an enumeration finds no
other note than before but the file, and that once at most.
-/

namespace LinkedNotes.Discovery

variable {σ : Type} [FileSystem σ]

/-- Chunks put together are the list that was cut. -/
theorem flatten_chunksOf {α : Type} {size fuel : Nat} {items : List α} (hsize : 0 < size)
    (hfuel : items.length ≤ fuel) : (chunksOf size fuel items).flatten = items := by
  induction fuel generalizing items with
  | zero =>
    obtain rfl := List.length_eq_zero_iff.mp (Nat.le_zero.mp hfuel)
    rfl
  | succ fuel ih =>
    cases items with
    | nil => rfl
    | cons first rest =>
      have hdrop : ((first :: rest).drop size).length ≤ fuel := by
        rw [List.length_drop]
        omega
      rw [chunksOf, List.flatten_cons, ih hdrop, List.take_append_drop]
      exact List.cons_ne_nil first rest

/-- Git is asked about each path in one chunk. -/
theorem flatten_chunks {α : Type} (items : List α) : (chunks items).flatten = items :=
  flatten_chunksOf (by decide) (Nat.le_refl _)

variable {root : Path} {files after : σ}

/-- A chunk has only paths of the list that was cut. -/
theorem subset_of_mem_chunks {α : Type} {items chunk : List α} (h : chunk ∈ chunks items) :
    chunk ⊆ items := fun item hitem => by
  rw [← flatten_chunks items]
  exact List.mem_flatten_of_mem h hitem

/-- Git is asked about more notes with more paths. -/
theorem textsBelow_subset {notes more : List Path} (h : notes ⊆ more) :
    textsBelow root notes ⊆ textsBelow root more :=
  List.filterMap_subset _ h

/-- Where git fails it ignores nothing. -/
theorem ignoredIn_of_gitFails (h : FileSystem.GitFails root files) {texts : List Text}
    (hasked : texts ⊆ FileSystem.asked root files) :
    ignoredIn files root (chunks texts) = [] := by
  refine List.flatMap_eq_nil_iff.mpr fun chunk hchunk => ?_
  rw [h chunk (List.Subset.trans (subset_of_mem_chunks hchunk) hasked)]
  rfl

/-- Where git answers for each path on its own, the chunks do not matter. -/
theorem mem_ignoredIn_of_gitAnswers {ignores : Text → Bool}
    (h : FileSystem.GitAnswers root files ignores) {texts : List Text}
    (hasked : texts ⊆ FileSystem.asked root files) {path : Path} :
    path ∈ ignoredIn files root (chunks texts) ↔
      ∃ text ∈ texts, ignores text = true ∧ root.join ⟨text⟩ = path := by
  have hchunk : ∀ chunk ∈ chunks texts,
      path ∈ ((FileSystem.ignored files root chunk).getD []).map
          (fun text => root.join (Host.ofText text)) ↔
        ∃ text ∈ chunk, ignores text = true ∧ root.join ⟨text⟩ = path := fun chunk hin => by
    obtain ⟨answer, hanswer, hmem⟩ :=
      h chunk (List.Subset.trans (subset_of_mem_chunks hin) hasked)
    simp only [hanswer, Option.getD_some, List.mem_map, hmem, and_assoc]
    rfl
  simp only [ignoredIn, List.mem_flatMap]
  constructor
  · rintro ⟨chunk, hin, hpath⟩
    obtain ⟨text, htext, hrest⟩ := (hchunk chunk hin).mp hpath
    exact ⟨text, subset_of_mem_chunks hin htext, hrest⟩
  · rintro ⟨text, htext, hrest⟩
    rw [← flatten_chunks texts] at htext
    obtain ⟨chunk, hin, htext⟩ := List.mem_flatten.mp htext
    exact ⟨chunk, hin, (hchunk chunk hin).mpr ⟨text, htext, hrest⟩⟩

/-- A note that git does not ignore among some notes it does not ignore among fewer. -/
theorem mem_keptIn_of_subset (hgit : FileSystem.GitAgrees root files after)
    {notes more : List Path} (hsub : notes ⊆ more) (hnotes : notes ⊆ FileSystem.list files root)
    (hmore : more ⊆ FileSystem.list after root) {note : Path} (hnote : note ∈ notes)
    (h : note ∈ keptIn after root more) : note ∈ keptIn files root notes := by
  simp only [keptIn, List.mem_filter, Bool.not_eq_true', List.any_eq_false] at h ⊢
  refine ⟨hnote, fun ignored hignored => h.2 ignored ?_⟩
  rcases hgit with ⟨hfails, -⟩ | ⟨ignores, hbefore, hafter⟩
  · rw [ignoredIn_of_gitFails hfails (textsBelow_subset hnotes)] at hignored
    cases hignored
  · obtain ⟨text, htext, hrest⟩ :=
      (mem_ignoredIn_of_gitAnswers hbefore (textsBelow_subset hnotes)).mp hignored
    exact (mem_ignoredIn_of_gitAnswers hafter (textsBelow_subset hmore)).mpr
      ⟨text, textsBelow_subset hsub htext, hrest⟩

variable {settings : IndexSettings}

/-- An enumeration finds each note at most as often as it is listed. -/
theorem listing_subperm (files : σ) (root : Path) (settings : IndexSettings) :
    (listing files root settings).Subperm (FileSystem.list files root) := by
  have hincluded : (included root settings (FileSystem.list files root)).Sublist
      (FileSystem.list files root) := List.filter_sublist
  refine (List.mergeSort_perm _ _).subperm.trans ?_
  split
  · exact (List.filter_sublist.trans hincluded).subperm
  · exact hincluded.subperm

/-- A note that an enumeration finds after more files are listed, it has found before if it was
listed then. -/
theorem mem_listing_of_subset
    (hgit : FileSystem.GitAgrees root files after)
    (hsub : FileSystem.list files root ⊆ FileSystem.list after root) {note : Path}
    (hnote : note ∈ FileSystem.list files root) (h : note ∈ listing after root settings) :
    note ∈ listing files root settings := by
  have hincluded : note ∈ included root settings (FileSystem.list after root) := by
    rw [listing, List.mem_mergeSort] at h
    split at h
    · exact (List.mem_filter.mp h).1
    · exact h
  have hbefore : note ∈ included root settings (FileSystem.list files root) :=
    List.mem_filter.mpr ⟨hnote, (List.mem_filter.mp hincluded).2⟩
  rw [listing, List.mem_mergeSort] at h ⊢
  cases hrespect : settings.respectGitignore with
  | false => simpa [hrespect] using hbefore
  | true =>
    have hsome := List.isEmpty_eq_false_iff.mpr (List.ne_nil_of_mem hincluded)
    have hsome' := List.isEmpty_eq_false_iff.mpr (List.ne_nil_of_mem hbefore)
    simp only [hrespect, hsome, hsome', Bool.not_false, Bool.and_self, if_true] at h ⊢
    have hfilter : included root settings (FileSystem.list files root) ⊆
        included root settings (FileSystem.list after root) := List.filter_subset _ hsub
    exact mem_keptIn_of_subset hgit hfilter (List.filter_subset_self _) (List.filter_subset_self _)
      hbefore h

section

variable {path : Path} {content : Text} {p : Path → Bool}

/-- A note with a property that no note had before is not listed before. -/
theorem notMem_list_of_filter_eq_nil (hgit : FileSystem.GitAgrees root files after)
    (hsub : FileSystem.list files root ⊆ FileSystem.list after root)
    (hnone : (listing files root settings).filter p = []) {note : Path}
    (h : note ∈ (listing after root settings).filter p) :
    note ∉ FileSystem.list files root := by
  intro hlisted
  obtain ⟨hmem, hp⟩ := List.mem_filter.mp h
  have hbefore := mem_listing_of_subset hgit hsub hlisted hmem
  exact List.filter_eq_nil_iff.mp hnone note hbefore hp

/-- When no note has a property and a file is created, then no note has it afterwards but the file,
and that is found once at most. -/
theorem filter_listing_of_adds (hlaws : FileSystem.Lexical root files)
    (hadds : FileSystem.Adds root files path content after)
    (habsent : FileSystem.isFile files path = false)
    (hnone : (listing files root settings).filter p = []) :
    (listing after root settings).filter p = [] ∨
      ∃ listed, listed.same path = true ∧ (listing after root settings).filter p = [listed] := by
  have hlist : ∀ note ∈ (listing after root settings).filter p,
      note ∈ FileSystem.list after root := fun note hnote =>
    (listing_subperm after root settings).subset (List.mem_filter.mp hnote).1
  rcases hadds.list with hperm | ⟨listed, hsame, hperm⟩
  · left
    refine List.eq_nil_iff_forall_not_mem.mpr fun note hnote => ?_
    exact notMem_list_of_filter_eq_nil hadds.git hperm.symm.subset hnone hnote
      (hperm.subset (hlist note hnote))
  · have hsub : FileSystem.list files root ⊆ FileSystem.list after root := fun note hnote =>
      hperm.symm.subset (List.mem_cons_of_mem listed hnote)
    have hall : ∀ note ∈ (listing after root settings).filter p, note = listed :=
      fun note hnote => (List.mem_cons.mp (hperm.subset (hlist note hnote))).resolve_right
        (notMem_list_of_filter_eq_nil hadds.git hsub hnone hnote)
    have hfresh : listed ∉ FileSystem.list files root := fun hmem => by
      rw [← hlaws.same listed path hsame, hlaws.listed listed hmem] at habsent
      cases habsent
    have hreplicate := List.eq_replicate_of_mem hall
    have hcount : ((listing after root settings).filter p).length ≤ 1 := calc
      ((listing after root settings).filter p).length
          = ((listing after root settings).filter p).count listed := by
        rw [hreplicate, List.length_replicate, List.count_replicate_self]
      _ ≤ (listing after root settings).count listed := List.filter_sublist.count_le listed
      _ ≤ (FileSystem.list after root).count listed :=
        (listing_subperm after root settings).count_le listed
      _ = 1 := by
        rw [hperm.count_eq, List.count_cons_self, List.count_eq_zero.mpr hfresh]
    rcases Nat.le_one_iff_eq_zero_or_eq_one.mp hcount with hzero | hone
    · exact .inl (List.length_eq_zero_iff.mp hzero)
    · rw [hone] at hreplicate
      exact .inr ⟨listed, hsame, hreplicate⟩

end

end LinkedNotes.Discovery
