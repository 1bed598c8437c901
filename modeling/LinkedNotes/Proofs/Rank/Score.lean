import LinkedNotes.Rank.Basic
import Mathlib

/-!
# Exact scores

Scores as fractions. A key that matches scores at most three fifths, and the score of a note is the
mean of its keys with weights of six, three and one tenth. Main statements: what a key scores for
each way of matching, and where that leaves the score of a note. The same scores as doubles, which
are rounded, are outside this module.
-/

namespace LinkedNotes.Rank

/-! ## The constants -/

/-- The score of a typing error is three fifths. -/
theorem typoScore_exact : (typoScore : Rat) = 3 / 5 := by
  decide +kernel

/-- A key that does not match counts in full. -/
theorem noMatch_exact : (noMatch : Rat) = 1 := by
  decide +kernel

/-- The mean weighs the label with six tenths, the file name with three and the path with one. -/
theorem mean_exact (label stem path : Option Rat) :
    mean label stem path =
      3 / 5 * label.getD 1 + 3 / 10 * stem.getD 1 + 1 / 10 * path.getD 1 := by
  have hlabel : (labelWeight : Rat) = 3 / 5 := by decide +kernel
  have hstem : (stemWeight : Rat) = 3 / 10 := by decide +kernel
  have hpath : (pathWeight : Rat) = 1 / 10 := by decide +kernel
  have hzero : (Scale.ofInt 0 : Rat) = 0 := by decide +kernel
  simp only [mean, hlabel, hstem, hpath, hzero, noMatch_exact]
  ring

/-! ## Ways of matching -/

/-- Whether a key starts with a query up to the typing errors that the query tolerates. -/
def Comparison.Tolerates (comparison : Comparison) (query key : Text) : Prop :=
  ∃ limit machine, tolerance? query = some limit ∧ comparison.typos? query limit = some machine ∧
    machine.startsWith.comesToAccept (Automaton.utf8 key) = true

/-- Whether a key matches a query in any way. -/
def Comparison.Matches (comparison : Comparison) (query key : Text) : Prop :=
  key = query ∨ (comparison.points? key query).isSome = true ∨ comparison.Tolerates query key

variable {comparison : Comparison} {query key : Text}

/-- The scorer of a query asks the automaton whether typing errors are tolerated. -/
theorem any_typos_iff :
    (Scorer.ofQuery comparison query).typos.any (·.comesToAccept (Automaton.utf8 key)) = true ↔
      comparison.Tolerates query key := by
  simp only [Scorer.ofQuery, Option.any_eq_true, Option.bind_eq_some_iff, Option.map_eq_some_iff,
    Comparison.Tolerates]
  constructor
  · rintro ⟨_, ⟨limit, hlimit, machine, hmachine, rfl⟩, haccepts⟩
    exact ⟨limit, machine, hlimit, hmachine, haccepts⟩
  · rintro ⟨limit, machine, hlimit, hmachine, haccepts⟩
    exact ⟨_, ⟨limit, hlimit, machine, hmachine, rfl⟩, haccepts⟩

/-- The score of a key as a fraction. -/
theorem score?_ofQuery :
    (Scorer.ofQuery comparison query).score? (S := Rat) key =
      if key = query then some (0 : Rat)
      else match comparison.points? key query with
        | some points => some (subsequenceScore points (Scorer.ofQuery comparison query).best
            query.length key.length)
        | none =>
          if (Scorer.ofQuery comparison query).typos.any
            (·.comesToAccept (Automaton.utf8 key)) then some (3 / 5) else none := by
  rw [← typoScore_exact]
  rfl

/-- An equal key scores nothing. -/
theorem score?_of_eq (h : key = query) :
    (Scorer.ofQuery comparison query).score? key = some (0 : Rat) := by
  rw [score?_ofQuery, if_pos h]

/-- A key that holds the query as a subsequence scores by its points. -/
theorem score?_of_points? (h : key ≠ query) {points : Int}
    (hpoints : comparison.points? key query = some points) :
    (Scorer.ofQuery comparison query).score? (S := Rat) key =
      some (subsequenceScore points (Scorer.ofQuery comparison query).best query.length
        key.length) := by
  rw [score?_ofQuery, if_neg h, hpoints]

/-- Another key scores three fifths if its typing errors are tolerated. -/
theorem score?_of_tolerates (h : key ≠ query) (hpoints : comparison.points? key query = none)
    (htolerates : comparison.Tolerates query key) :
    (Scorer.ofQuery comparison query).score? key = some (3 / 5 : Rat) := by
  rw [score?_ofQuery, if_neg h, hpoints]
  exact if_pos (any_typos_iff.mpr htolerates)

/-- Any other key scores nothing at all. -/
theorem score?_of_not_matches (h : ¬comparison.Matches query key) :
    (Scorer.ofQuery comparison query).score? (S := Rat) key = none := by
  simp only [Comparison.Matches, not_or, Bool.not_eq_true, Option.isSome_eq_false_iff,
    Option.isNone_iff_eq_none] at h
  obtain ⟨hne, hpoints, htolerates⟩ := h
  rw [score?_ofQuery, if_neg hne, hpoints]
  exact if_neg (mt any_typos_iff.mp htolerates)

/-- A number is moved into the interval from nothing to one. -/
theorem clamp_eq (a : Rat) : Scale.clamp a = if a ≤ 0 then 0 else if 1 ≤ a then 1 else a := by
  have hzero : (Scale.ofInt 0 : Rat) = 0 := by decide +kernel
  have hone : (Scale.ofInt 1 : Rat) = 1 := by decide +kernel
  have hle (a b : Rat) : Scale.le a b = decide (a ≤ b) := rfl
  simp only [Scale.clamp, hzero, hone, hle, decide_eq_true_eq]

/-- A number that is moved into the interval from nothing to one lies there. -/
theorem clamp_exact (a : Rat) : 0 ≤ Scale.clamp a ∧ Scale.clamp a ≤ 1 := by
  rw [clamp_eq]
  split_ifs with hneg hlarge
  · exact ⟨le_rfl, zero_le_one⟩
  · exact ⟨zero_le_one, le_rfl⟩
  · exact ⟨(not_le.mp hneg).le, (not_le.mp hlarge).le⟩

/-- Moving numbers into the interval keeps their order. -/
theorem clamp_mono {a b : Rat} (h : a ≤ b) : Scale.clamp a ≤ Scale.clamp b := by
  rw [clamp_eq, clamp_eq]
  split_ifs <;> linarith

/-- A subsequence scores at most one half, however many points it has. -/
theorem subsequenceScore_exact (points best : Int) (queryLength keyLength : Nat) :
    0 ≤ (subsequenceScore points best queryLength keyLength : Rat) ∧
      (subsequenceScore points best queryLength keyLength : Rat) ≤ 1 / 2 := by
  have hone : (Scale.ofInt 1 : Rat) = 1 := by decide +kernel
  have hcloseness : (OfScientific.ofScientific 4 true 1 : Rat) = 2 / 5 := by decide +kernel
  have hcoverage : (OfScientific.ofScientific 1 true 1 : Rat) = 1 / 10 := by decide +kernel
  have hle (a b : Rat) : Scale.le a b = decide (a ≤ b) := rfl
  simp only [subsequenceScore, hone, hcloseness, hcoverage, hle, decide_eq_true_eq]
  obtain ⟨hlow, hhigh⟩ := clamp_exact (Scale.ofInt points / Scale.ofInt best)
  have hnonneg : (0 : Rat) ≤ Scale.ofInt queryLength / Scale.ofInt (max keyLength 1 : Nat) :=
    div_nonneg (Int.cast_nonneg (Int.natCast_nonneg _)) (Int.cast_nonneg (Int.natCast_nonneg _))
  split_ifs with hcover
  · constructor <;> linarith
  · constructor <;> linarith

/-- A key has a score exactly if it matches, and then one of at most three fifths. -/
theorem score?_cases (comparison : Comparison) (query key : Text) :
    (comparison.Matches query key ∧ ∃ score : Rat,
      (Scorer.ofQuery comparison query).score? key = some score ∧ 0 ≤ score ∧ score ≤ 3 / 5) ∨
    (¬comparison.Matches query key ∧
      (Scorer.ofQuery comparison query).score? (S := Rat) key = none) := by
  by_cases hmatches : comparison.Matches query key
  · refine .inl ⟨hmatches, ?_⟩
    by_cases heq : key = query
    · exact ⟨0, score?_of_eq heq, le_rfl, by norm_num⟩
    cases hpoints : comparison.points? key query with
    | some points =>
      obtain ⟨hlow, hhigh⟩ := subsequenceScore_exact points
        (Scorer.ofQuery comparison query).best query.length key.length
      exact ⟨_, score?_of_points? heq hpoints, hlow, by linarith⟩
    | none =>
      have htolerates : comparison.Tolerates query key := by
        rcases hmatches with h | h | h
        · exact absurd h heq
        · rw [hpoints] at h
          cases h
        · exact h
      exact ⟨3 / 5, score?_of_tolerates heq hpoints htolerates, by norm_num, le_rfl⟩
  · exact .inr ⟨hmatches, score?_of_not_matches hmatches⟩

/-! ## Notes -/

/-- What a key counts in the score of its note. -/
def Comparison.share (comparison : Comparison) (query key : Text) : Rat :=
  ((Scorer.ofQuery comparison query).score? key).getD 1

/-- An equal key counts nothing. -/
theorem share_self (comparison : Comparison) (query : Text) :
    comparison.share query query = 0 := by
  rw [Comparison.share, score?_of_eq rfl]
  rfl

/-- A key that matches counts at most three fifths. -/
theorem share_le_of_matches (h : comparison.Matches query key) :
    comparison.share query key ≤ 3 / 5 := by
  rcases score?_cases comparison query key with ⟨-, score, hscore, -, hle⟩ | ⟨hnot, -⟩
  · rwa [Comparison.share, hscore]
  · exact absurd h hnot

/-- A key that does not match counts in full. -/
theorem share_of_not_matches (h : ¬comparison.Matches query key) :
    comparison.share query key = 1 := by
  rw [Comparison.share, score?_of_not_matches h]
  rfl

/-- A key that neither is equal nor holds the query as a subsequence counts three fifths or more. -/
theorem le_share_of_points?_eq_none (h : key ≠ query)
    (hpoints : comparison.points? key query = none) : 3 / 5 ≤ comparison.share query key := by
  by_cases htolerates : comparison.Tolerates query key
  · rw [Comparison.share, score?_of_tolerates h hpoints htolerates]
    exact le_rfl
  · have hnot : ¬comparison.Matches query key := by
      rintro (heq | hsome | htol)
      · exact h heq
      · rw [hpoints] at hsome
        cases hsome
      · exact htolerates htol
    rw [share_of_not_matches hnot]
    norm_num

/-- What a key counts lies between nothing and one. -/
theorem share_mem (comparison : Comparison) (query key : Text) :
    0 ≤ comparison.share query key ∧ comparison.share query key ≤ 1 := by
  rcases score?_cases comparison query key with ⟨-, score, hscore, hlow, hle⟩ | ⟨hnot, -⟩
  · rw [Comparison.share, hscore]
    exact ⟨hlow, hle.trans (by norm_num)⟩
  · rw [share_of_not_matches hnot]
    exact ⟨zero_le_one, le_rfl⟩

/-- The score of a note, from what its keys count. -/
def Comparison.noteScore (comparison : Comparison) (query : Text) (keys : NoteKeys) : Rat :=
  3 / 5 * comparison.share query keys.label + 3 / 10 * comparison.share query keys.stem +
    1 / 10 * comparison.share query keys.path

/-- Whether one of the keys of a note matches. -/
def Comparison.MatchesNote (comparison : Comparison) (query : Text) (keys : NoteKeys) : Prop :=
  comparison.Matches query keys.label ∨ comparison.Matches query keys.stem ∨
    comparison.Matches query keys.path

/-- A note has a score exactly if one of its keys matches. -/
theorem noteScore?_eq_some_iff {keys : NoteKeys} {score : Rat} :
    (Scorer.ofQuery comparison query).noteScore? keys = some score ↔
      comparison.MatchesNote query keys ∧ score = comparison.noteScore query keys := by
  have hnone (key : Text) :
      ((Scorer.ofQuery comparison query).score? (S := Rat) key).isNone = true ↔
        ¬comparison.Matches query key := by
    rcases score?_cases comparison query key with ⟨hyes, score, hscore, -⟩ | ⟨hno, hscore⟩
    · rw [hscore]
      exact ⟨(nomatch ·), fun h => absurd hyes h⟩
    · rw [hscore]
      exact ⟨fun _ => hno, fun _ => rfl⟩
  have hall : (((Scorer.ofQuery comparison query).score? (S := Rat) keys.label).isNone &&
        ((Scorer.ofQuery comparison query).score? (S := Rat) keys.stem).isNone &&
        ((Scorer.ofQuery comparison query).score? (S := Rat) keys.path).isNone) = true ↔
      ¬comparison.MatchesNote query keys := by
    simp only [Bool.and_eq_true, hnone, Comparison.MatchesNote, not_or, and_assoc]
  simp only [Scorer.noteScore?, mean_exact]
  by_cases hmatches : comparison.MatchesNote query keys
  · rw [if_neg fun h => hall.mp h hmatches, Option.some.injEq]
    exact ⟨fun h => ⟨hmatches, h.symm⟩, fun h => h.2.symm⟩
  · rw [if_pos (hall.mpr hmatches)]
    exact ⟨(nomatch ·), fun h => absurd h.1 hmatches⟩

/-- The score of a note lies between nothing and one. -/
theorem noteScore_mem (comparison : Comparison) (query : Text) (keys : NoteKeys) :
    0 ≤ comparison.noteScore query keys ∧ comparison.noteScore query keys ≤ 1 := by
  obtain ⟨hlabel, hlabel'⟩ := share_mem comparison query keys.label
  obtain ⟨hstem, hstem'⟩ := share_mem comparison query keys.stem
  obtain ⟨hpath, hpath'⟩ := share_mem comparison query keys.path
  unfold Comparison.noteScore
  constructor <;> linarith

end LinkedNotes.Rank
