import LinkedNotes.Proofs.Json.Fields
import LinkedNotes.Proofs.Note.Name
import LinkedNotes.Proofs.Rank.Order
import LinkedNotes.Proofs.Rank.Subsequence
import LinkedNotes.Proofs.Rank.Typo
import Mathlib

/-!
# Which notes are ranked

A key is near a query when it is equal to it, holds it as a subsequence, or starts with a text
within a few typing errors of it. Main statement: the candidates for a query are the notes one of
whose keys is near it, each as often as it is among the notes, in the order of scores between
nothing and one; a query without letters has all notes as candidates, by their labels. This is said
of every comparison that scores just the subsequences and whose automata decide distances, and the
comparison in use does so for queries of ASCII characters.
-/

namespace LinkedNotes

/-- A name in normal form has no ASCII capitals. -/
theorem Note.isUpper_of_mem_normalize {name : Text} {c : Char} (h : c ∈ normalize name) :
    c.isUpper = false :=
  Text.isUpper_of_mem_lowerAfter (List.mem_of_mem_filter h)

/-- The case of ASCII letters does not count in a normal form. -/
theorem Note.map_toLower_normalize (name : Text) :
    (normalize name).map Char.toLower = normalize name := by
  refine (List.map_congr_left fun c hc => ?_).trans (List.map_id _)
  refine Char.toLower_eq_of_not_isUpper ?_
  rw [isUpper_of_mem_normalize hc]
  exact Bool.false_ne_true

namespace Rank

open Text

/-! ## Keys near a query -/

/-- Whether a key is near a query: it is equal to it, holds it as a subsequence, or, for a query of
at least three characters whose automaton can be built, starts with a text within one error of it,
or within two if the query has five characters or more. -/
def Comparison.Near (comparison : Comparison) (query key : Text) : Prop :=
  key = query ∨ query.Sublist key ∨
    3 ≤ query.length ∧ (comparison.typos? query (if query.length < 5 then 1 else 2)).isSome ∧
      ∃ start ∈ key.inits, distance start query ≤ if query.length < 5 then 1 else 2

/-- What is assumed of a comparison with a query: it scores just the subsequences, whatever the case
of ASCII letters, and its automata accept just the texts within their number of errors. -/
structure Comparison.Exact (comparison : Comparison) (query : Text) : Prop where
  /-- A text has points exactly if it holds the query as a subsequence. -/
  isSome_points?_iff (key : Text) : (comparison.points? key query).isSome = true ↔
    (query.map Char.toLower).Sublist (key.map Char.toLower)
  /-- An automaton decides which texts are near enough. -/
  decides {limit : Nat} {machine : Automaton} (h : comparison.typos? query limit = some machine) :
    machine.Decides fun text => distance text query ≤ limit

variable {comparison : Comparison} {query : Text}

/-- Typing errors are tolerated in keys that start with a text near enough. -/
theorem Comparison.Exact.tolerates_iff (h : comparison.Exact query) (key : Text) :
    comparison.Tolerates query key ↔ 3 ≤ query.length ∧
      (comparison.typos? query (if query.length < 5 then 1 else 2)).isSome ∧
        ∃ start ∈ key.inits, distance start query ≤ if query.length < 5 then 1 else 2 := by
  constructor
  · rintro ⟨limit, machine, hlimit, hmachine, haccepts⟩
    rw [tolerance?] at hlimit
    split at hlimit
    · cases hlimit
    · next hlong =>
      cases hlimit
      obtain ⟨start, hstart, hnear⟩ :=
        (Automaton.comesToAccept_startsWith_iff (h.decides hmachine) key).mp haccepts
      exact ⟨not_lt.mp hlong, by rw [hmachine]; rfl, start, (List.mem_inits _ _).mpr hstart, hnear⟩
  · rintro ⟨hlong, hbuilt, start, hstart, hnear⟩
    obtain ⟨machine, hmachine⟩ := Option.isSome_iff_exists.mp hbuilt
    refine ⟨_, machine, ?_, hmachine, ?_⟩
    · rw [tolerance?, if_neg (not_lt.mpr hlong)]
    · exact (Automaton.comesToAccept_startsWith_iff (h.decides hmachine) key).mpr
        ⟨start, (List.mem_inits _ _).mp hstart, hnear⟩

/-- A key in normal form matches a query in normal form exactly if it is near it. -/
theorem Comparison.Exact.matches_iff {query key : Text}
    (h : comparison.Exact (Note.normalize query)) :
    comparison.Matches (Note.normalize query) (Note.normalize key) ↔
      comparison.Near (Note.normalize query) (Note.normalize key) := by
  rw [Comparison.Matches, Comparison.Near, h.isSome_points?_iff, h.tolerates_iff,
    Note.map_toLower_normalize, Note.map_toLower_normalize]

/-- The comparison in use is exact for queries of ASCII characters without capitals. -/
theorem exact_usual (hne : query ≠ []) (hlower : Subsequence.caseMatters query = false)
    (hascii : ∀ c ∈ query, c.toNat < 128) : Comparison.usual.Exact query where
  isSome_points?_iff key := Subsequence.isSome_score?_iff hne hlower
  decides {limit machine} h := by
    have hmachine : machine = (Typo.Pattern.mk query limit).automaton := by
      simp only [Comparison.usual, Typo.Pattern.automaton?] at h
      split at h
      · exact (Option.some.inj h).symm
      · cases h
    rw [hmachine]
    exact Typo.Pattern.decides_automaton hascii

end Rank

namespace Ranker

open Rank

/-- Whether one of the three keys of a note is near a query. -/
def Near (comparison : Comparison) (ranker : Ranker) (query : Text) (note : Path) : Prop :=
  comparison.Near query (ranker.keys note).label ∨ comparison.Near query (ranker.keys note).stem ∨
    comparison.Near query (ranker.keys note).path

instance (comparison : Comparison) (ranker : Ranker) (query : Text) :
    DecidablePred (ranker.Near comparison query) := fun note => by
  unfold Near Comparison.Near
  infer_instance

variable {comparison : Comparison} {ranker : Ranker} {query : Text}

/-- A note matches exactly if one of its keys is near the query. -/
theorem matchesNote_iff_near (h : comparison.Exact (Note.normalize query)) (note : Path) :
    comparison.MatchesNote (Note.normalize query) (ranker.keys note) ↔
      ranker.Near comparison (Note.normalize query) note := by
  simp only [Comparison.MatchesNote, Near, keys, h.matches_iff]

/-- The candidates in the order of the notes are those notes that are near the query. -/
theorem found_eq_map_filter (h : comparison.Exact (Note.normalize query)) (notes : List Path) :
    ranker.found comparison query notes =
      (notes.filter (ranker.Near comparison (Note.normalize query))).map fun note =>
        ranker.candidate query note
          (comparison.noteScore (Note.normalize query) (ranker.keys note)) := by
  induction notes with
  | nil => rfl
  | cons note rest ih =>
    rw [found, List.filterMap_cons, ← found, ih]
    by_cases hnear : ranker.Near comparison (Note.normalize query) note
    · have hscore : (Scorer.ofQuery comparison (Note.normalize query)).noteScore?
          (ranker.keys note) = some (comparison.noteScore (Note.normalize query)
            (ranker.keys note)) :=
        noteScore?_eq_some_iff.mpr ⟨(matchesNote_iff_near h note).mpr hnear, rfl⟩
      rw [hscore, List.filter_cons_of_pos (by simpa using hnear)]
      rfl
    · have hscore : (Scorer.ofQuery comparison (Note.normalize query)).noteScore? (S := Rat)
          (ranker.keys note) = none :=
        Option.eq_none_iff_forall_ne_some.mpr fun score hscore =>
          hnear ((matchesNote_iff_near h note).mp (noteScore?_eq_some_iff.mp hscore).1)
      rw [hscore, List.filter_cons_of_neg (by simpa using hnear)]
      rfl

/-- A query without letters has all notes as candidates, in the order of their labels. -/
theorem inOrder_listAll (ranker : Ranker) (query : Text) (notes : List Path) :
    InOrder (fun candidate : Candidate Rat => Text.lower candidate.label) (Text.le · · = true)
      (notes.map fun note => ranker.candidate query note 0) (ranker.listAll query notes) := by
  have hsorted : ranker.listAll query notes =
      (notes.map fun note => ranker.candidate query note (0 : Rat)).mergeSort
        fun a b => Text.le (Text.lower a.label) (Text.lower b.label) := by
    rw [listAll, List.map_mergeSort (s := fun a b : Candidate Rat =>
      Text.le (Text.lower a.label) (Text.lower b.label)), List.map_map]
    · rfl
    · intro a ha b hb
      obtain ⟨_, -, rfl⟩ := List.mem_map.mp ha
      obtain ⟨_, -, rfl⟩ := List.mem_map.mp hb
      rfl
  rw [hsorted]
  refine inOrder_mergeSort _ Text.le (fun _ _ _ => Text.le_trans) (fun a b => ?_) _
  by_cases hle : Text.le a b = true
  · rw [hle, Bool.true_or]
  · rw [Text.le_total hle, Bool.or_true]

/-- A query without letters has all notes as candidates, in the order of their labels in lower case.
Any other query has those notes as candidates one of whose keys is near it, in the order of their
scores, which lie between nothing and one. What is equal stays in the order of the notes. -/
theorem rankBy_inOrder (comparison : Comparison) (ranker : Ranker) (query : Text)
    (notes : List Path) :
    let wanted := Note.normalize query
    let ranked : List (Candidate Rat) := ranker.rankBy comparison query notes
    (wanted = [] →
      InOrder (fun candidate => Text.lower candidate.label) (Text.le · · = true)
        (notes.map fun note => ranker.candidate query note 0) ranked) ∧
    (wanted ≠ [] → comparison.Exact wanted →
      InOrder Candidate.score (· ≤ ·)
        ((notes.filter (ranker.Near comparison wanted)).map fun note =>
          ranker.candidate query note (comparison.noteScore wanted (ranker.keys note))) ranked ∧
      ∀ candidate ∈ ranked, 0 ≤ candidate.score ∧ candidate.score ≤ 1) := by
  intro wanted ranked
  constructor
  · intro hblank
    have hall : ranked = ranker.listAll query notes := if_pos hblank
    rw [hall]
    exact inOrder_listAll ranker query notes
  · intro hquery hexact
    refine ⟨?_, fun candidate hmem => ?_⟩
    · rw [← found_eq_map_filter hexact]
      exact inOrder_rankBy comparison ranker notes hquery
    · obtain ⟨-, -, -, hscore⟩ := of_mem_rankBy hquery hmem
      rw [hscore]
      exact noteScore_mem comparison wanted candidate.keys

/-- A missing letter: the shopping list is a candidate for `Shoping`, and the other note is not. -/
theorem rankBy_inOrder_shoping :
    let ranker : Ranker := ⟨⟨"/ws".toList⟩, .uniqueNames, none⟩
    let notes : List Path := [⟨"/ws/other.md".toList⟩, ⟨"/ws/Shopping List.md".toList⟩]
    let wanted := Note.normalize "Shoping".toList
    wanted ≠ [] ∧ Comparison.usual.Exact wanted ∧
      InOrder Candidate.score (· ≤ ·)
        ((notes.filter (ranker.Near .usual wanted)).map fun note =>
          ranker.candidate "Shoping".toList note
            (Comparison.usual.noteScore wanted (ranker.keys note)))
        (ranker.rank "Shoping".toList notes) := by
  intro ranker notes wanted
  have hletters : wanted = "shoping".toList := by decide +kernel
  have hwanted : wanted ≠ [] := by
    rw [hletters]
    decide
  have hascii : "shoping".toList.all (·.toNat < 128) = true := by decide
  have hexact : Comparison.usual.Exact wanted := by
    rw [hletters]
    exact exact_usual (by decide) (by decide) fun c hc =>
      of_decide_eq_true (List.all_eq_true.mp hascii c hc)
  exact ⟨hwanted, hexact,
    ((rankBy_inOrder .usual ranker "Shoping".toList notes).2 hwanted hexact).1⟩

end Ranker
end LinkedNotes
