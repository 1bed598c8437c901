import LinkedNotes.Proofs.Rank.Score
import Mathlib

/-!
# The order of candidates

Candidates are sorted by their scores, and equal scores keep the order of the notes. Main
statements: sorting puts a list in order without losing anything, each candidate has the score of
its note, and it can be told from the notes alone whether the candidates with some property come
first.
-/

namespace LinkedNotes

/-! ## Lists in order -/

/-- A list in the order of a key, in which equal keys keep the order in which they were given. -/
structure InOrder {α β : Type} [DecidableEq β] (key : α → β) (le : β → β → Prop)
    (given sorted : List α) : Prop where
  /-- Nothing is lost and nothing comes in. -/
  perm : sorted.Perm given
  /-- No later key is less. -/
  pairwise : sorted.Pairwise fun first second => le (key first) (key second)
  /-- Equal keys stay as they were given. -/
  filter_eq (value : β) : sorted.filter (key · = value) = given.filter (key · = value)

/-- Sorting puts a list in order. -/
theorem inOrder_mergeSort {α β : Type} [DecidableEq β] (key : α → β) (le : β → β → Bool)
    (htrans : ∀ a b c, le a b = true → le b c = true → le a c = true)
    (htotal : ∀ a b, (le a b || le b a) = true) (given : List α) :
    InOrder key (le · · = true) given
      (given.mergeSort fun first second => le (key first) (key second)) where
  perm := List.mergeSort_perm _ _
  pairwise := List.pairwise_mergeSort (fun a b c => htrans (key a) (key b) (key c))
    (fun a b => htotal (key a) (key b)) given
  filter_eq value := by
    have hrefl : le value value = true := by simpa using htotal value value
    have hequal : (given.filter (key · = value)).Pairwise
        fun first second => le (key first) (key second) = true := by
      rw [List.pairwise_filter]
      refine List.pairwise_of_forall fun first second hfirst hsecond => ?_
      rwa [of_decide_eq_true hfirst, of_decide_eq_true hsecond]
    have hsublist := (List.sublist_mergeSort (fun a b c => htrans (key a) (key b) (key c))
      (fun a b => htotal (key a) (key b)) hequal List.filter_sublist).filter (key · = value)
    rw [List.filter_filter] at hsublist
    simp only [Bool.and_self] at hsublist
    exact (hsublist.eq_of_length
      ((List.mergeSort_perm given _).filter _).length_eq.symm).symm

/-- A list that is in order already is the only one that puts it in order. -/
theorem InOrder.eq_of_pairwise {α β : Type} [DecidableEq β] {key : α → β} {le : β → β → Prop}
    (hantisymm : ∀ a b, le a b → le b a → a = b) {given sorted : List α}
    (h : InOrder key le given sorted)
    (hgiven : given.Pairwise fun first second => le (key first) (key second)) : sorted = given := by
  obtain ⟨hperm, hsorted, hfilter⟩ := h
  induction sorted generalizing given with
  | nil => exact hperm.nil_eq
  | cons first sorted ih =>
    cases given with
    | nil => exact absurd hperm List.not_perm_cons_nil
    | cons second given =>
      -- Each of the two heads stands before the other one in its own list, or they are the same.
      have hkey : key first = key second := by
        rcases List.mem_cons.mp (hperm.mem_iff.mp List.mem_cons_self) with heq | hfirst
        · exact congrArg key heq
        rcases List.mem_cons.mp (hperm.mem_iff.mpr List.mem_cons_self) with heq | hsecond
        · exact (congrArg key heq).symm
        exact hantisymm _ _ (List.rel_of_pairwise_cons hsorted hsecond)
          (List.rel_of_pairwise_cons hgiven hfirst)
      have hheads := hfilter (key second)
      simp only [List.filter_cons, hkey, decide_true, if_true] at hheads
      obtain rfl := (List.cons.inj hheads).1
      refine congrArg (first :: ·) (ih hgiven.tail hperm.cons_inv hsorted.tail fun value => ?_)
      have hrest := hfilter value
      rw [List.filter_cons, List.filter_cons] at hrest
      split_ifs at hrest with hvalue
      · exact (List.cons.inj hrest).2
      · exact hrest

/-- What has a property comes first after sorting exactly if, among what was given, no key without
it is less, and none before it is equal. -/
theorem InOrder.pairwise_first_iff {α β : Type} [LinearOrder β] {key : α → β}
    {given sorted : List α} (h : InOrder key (· ≤ ·) given sorted) (P : α → Prop) :
    (sorted.Pairwise fun first second => P second → P first) ↔
      given.Pairwise fun first second =>
        (P first → ¬P second → key first ≤ key second) ∧
          (¬P first → P second → key second < key first) := by
  have hstable {first second : α} (heq : key first = key second) :
      [first, second].Sublist sorted ↔ [first, second].Sublist given := by
    have hfilter (list : List α) : [first, second].Sublist list ↔
        [first, second].Sublist (list.filter (key · = key second)) := by
      refine ⟨fun hsub => ?_, fun hsub => hsub.trans List.filter_sublist⟩
      simpa [heq] using hsub.filter (key · = key second)
    rw [hfilter sorted, h.filter_eq, ← hfilter]
  have hle {first second : α} (hsub : [first, second].Sublist sorted) :
      key first ≤ key second := List.pairwise_iff_forall_sublist.mp h.pairwise hsub
  -- Two members of a list that differ stand in it one after the other.
  have heither {list : List α} {first second : α} (hfirst : first ∈ list) (hsecond : second ∈ list)
      (hne : first ≠ second) :
      [first, second].Sublist list ∨ [second, first].Sublist list := by
    obtain ⟨before, after, rfl⟩ := List.append_of_mem hfirst
    rcases List.mem_append.mp hsecond with hbefore | hafter
    · exact .inr ((List.singleton_sublist.mpr hbefore).append
        (List.singleton_sublist.mpr List.mem_cons_self))
    · refine .inl ((List.nil_sublist before).append ?_)
      exact (List.singleton_sublist.mpr ((List.mem_cons.mp hafter).resolve_left hne.symm)).cons_cons
        first
  rw [List.pairwise_iff_forall_sublist, List.pairwise_iff_forall_sublist]
  constructor
  · intro hfirst a b hab
    have ha : a ∈ sorted := h.perm.mem_iff.mpr (hab.subset (by simp))
    have hb : b ∈ sorted := h.perm.mem_iff.mpr (hab.subset (by simp))
    constructor
    · intro hPa hPb
      rcases heither ha hb (fun heq => hPb (heq ▸ hPa)) with hsub | hsub
      · exact hle hsub
      · exact absurd (hfirst hsub hPa) hPb
    · intro hPa hPb
      rcases heither ha hb (fun heq => hPa (heq ▸ hPb)) with hsub | hsub
      · exact absurd (hfirst hsub hPb) hPa
      · refine lt_of_le_of_ne (hle hsub) fun heq => hPa (hfirst ?_ hPb)
        exact (hstable heq.symm).mpr hab
  · intro hgiven a b hab hPb
    by_contra hPa
    have ha : a ∈ given := h.perm.mem_iff.mp (hab.subset (by simp))
    have hb : b ∈ given := h.perm.mem_iff.mp (hab.subset (by simp))
    rcases heither ha hb (fun heq => hPa (heq ▸ hPb)) with hsub | hsub
    · exact absurd (hle hab) (not_le.mpr ((hgiven hsub).2 hPa hPb))
    · -- The keys are equal, so that the two stand as they were given.
      have heq : key a = key b := le_antisymm (hle hab) ((hgiven hsub).1 hPb hPa)
      have hlt := (hgiven ((hstable heq).mp hab)).2 hPa hPb
      exact absurd heq hlt.ne'

namespace Ranker

open Rank

variable {comparison : Comparison} {ranker : Ranker} {query : Text} {notes : List Path}

/-! ## Candidates in the order of the notes -/

/-- The candidates in the order of the notes. -/
def found (comparison : Comparison) (ranker : Ranker) (query : Text) (notes : List Path) :
    List (Candidate Rat) :=
  notes.filterMap fun note =>
    ((Scorer.ofQuery comparison (Note.normalize query)).noteScore? (ranker.keys note)).map
      (ranker.candidate query note)

/-- The candidates are those of the notes in order of their scores. -/
theorem inOrder_rankBy (comparison : Comparison) (ranker : Ranker) (notes : List Path)
    (hquery : Note.normalize query ≠ []) :
    InOrder Candidate.score (· ≤ ·) (ranker.found comparison query notes)
      (ranker.rankBy comparison query notes) := by
  have hsort := inOrder_mergeSort (Candidate.score (S := Rat)) Scale.le
    (fun a b c hab hbc => decide_eq_true ((of_decide_eq_true hab).trans (of_decide_eq_true hbc)))
    (fun a b => by simpa [Scale.le] using le_total a b) (ranker.found comparison query notes)
  have hrank : ranker.rankBy comparison query notes =
      (ranker.found comparison query notes).mergeSort
        fun a b => Scale.le a.score b.score := by
    rw [rankBy, if_neg hquery]
    rfl
  rw [hrank]
  exact ⟨hsort.perm, hsort.pairwise.imp fun h => of_decide_eq_true h, hsort.filter_eq⟩

/-- The candidates for a query without letters are all as good. -/
theorem score_of_mem_listAll {candidate : Candidate Rat}
    (h : candidate ∈ ranker.listAll query notes) : candidate.score = 0 := by
  simp only [listAll, List.mem_map, List.mem_mergeSort] at h
  obtain ⟨_, ⟨note, -, rfl⟩, rfl⟩ := h
  exact Int.cast_zero

/-- Whatever the query, no later candidate has a lower score. -/
theorem pairwise_score_rankBy (comparison : Comparison) (ranker : Ranker) (query : Text)
    (notes : List Path) :
    (ranker.rankBy (S := Rat) comparison query notes).Pairwise (·.score ≤ ·.score) := by
  by_cases hquery : Note.normalize query = []
  · rw [rankBy, if_pos hquery]
    refine List.pairwise_of_forall_mem_list fun first hfirst second hsecond => ?_
    rw [score_of_mem_listAll hfirst, score_of_mem_listAll hsecond]
  · exact (inOrder_rankBy comparison ranker notes hquery).pairwise

/-- Candidates that are in order of their scores already stay as they are. -/
theorem rankBy_eq_of_pairwise (hquery : Note.normalize query ≠ [])
    (h : (ranker.found comparison query notes).Pairwise (·.score ≤ ·.score)) :
    ranker.rankBy comparison query notes = ranker.found comparison query notes := by
  rw [rankBy, if_neg hquery]
  exact List.mergeSort_of_pairwise (h.imp fun hle => decide_eq_true hle)

/-- A candidate belongs to a note one of whose keys matches, and has the score of this note. -/
theorem of_mem_found {candidate : Candidate Rat}
    (h : candidate ∈ ranker.found comparison query notes) :
    candidate.path ∈ notes ∧ candidate.keys = ranker.keys candidate.path ∧
      comparison.MatchesNote (Note.normalize query) candidate.keys ∧
      candidate.score = comparison.noteScore (Note.normalize query) candidate.keys := by
  obtain ⟨note, hnote, hcandidate⟩ := List.mem_filterMap.mp h
  obtain ⟨score, hscore, rfl⟩ := Option.map_eq_some_iff.mp hcandidate
  obtain ⟨hmatches, rfl⟩ := noteScore?_eq_some_iff.mp hscore
  exact ⟨hnote, rfl, hmatches, rfl⟩

/-- A candidate of the list has the score of its note. -/
theorem of_mem_rankBy (hquery : Note.normalize query ≠ []) {candidate : Candidate Rat}
    (h : candidate ∈ ranker.rankBy comparison query notes) :
    candidate.path ∈ notes ∧ candidate.keys = ranker.keys candidate.path ∧
      comparison.MatchesNote (Note.normalize query) candidate.keys ∧
      candidate.score = comparison.noteScore (Note.normalize query) candidate.keys :=
  of_mem_found ((inOrder_rankBy comparison ranker notes hquery).perm.mem_iff.mp h)

/-- Of two candidates the one with the lower score comes first. -/
theorem lt_of_score_lt (hquery : Note.normalize query ≠ []) {i j : Nat}
    (hi : i < (ranker.rankBy (S := Rat) comparison query notes).length)
    (hj : j < (ranker.rankBy (S := Rat) comparison query notes).length)
    (h : (ranker.rankBy (S := Rat) comparison query notes)[i].score <
      (ranker.rankBy (S := Rat) comparison query notes)[j].score) : i < j := by
  have hordered := List.pairwise_iff_getElem.mp
    (inOrder_rankBy comparison ranker notes hquery).pairwise
  by_contra hle
  rcases Nat.lt_or_eq_of_le (Nat.le_of_not_lt hle) with hlt | rfl
  · exact absurd h (not_lt.mpr (hordered j i hj hi hlt))
  · exact lt_irrefl _ h

end Ranker
end LinkedNotes
