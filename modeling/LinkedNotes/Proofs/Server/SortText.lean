import LinkedNotes.Proofs.Rank.Automaton
import LinkedNotes.Proofs.Rank.Order
import LinkedNotes.Server.Answer
import Mathlib

/-!
# Sort texts

A client sorts completion items by the octets of their sort texts. Main statements: octets of
numbers of the same width are in order exactly if the numbers are, so that sort texts are compared
by the rounded score and then by the capped place; hence the items of a ranked list are in order
already, and a client that sorts them keeps the list as it is. Rounding makes scores equal and never
swaps them. Doubles in place of exact scores are outside this module.
-/

namespace LinkedNotes

open Automaton

/-! ## Octets in order -/

/-- Octets that start with equally many are compared by these and then by the rest. -/
theorem append_lt_append_iff {first second : List UInt8} (h : first.length = second.length)
    (rest more : List UInt8) :
    first ++ rest < second ++ more ↔ first < second ∨ first = second ∧ rest < more := by
  induction first generalizing second with
  | nil =>
    obtain rfl := List.length_eq_zero_iff.mp h.symm
    simp
  | cons a first ih =>
    obtain ⟨b, second, rfl⟩ := List.exists_cons_of_length_eq_add_one h.symm
    rw [List.cons_append, List.cons_append, List.cons_lt_cons_iff, List.cons_lt_cons_iff,
      ih (Nat.succ.inj h), List.cons.injEq]
    tauto

/-- Octets that are in order exactly if some numbers are, are equal exactly if the numbers are. -/
theorem eq_iff_of_lt_iff {first second : List UInt8} {n m : Nat}
    (hlt : first < second ↔ n < m) (hgt : second < first ↔ m < n) : first = second ↔ n = m := by
  constructor
  · rintro rfl
    exact Nat.le_antisymm (Nat.not_lt.mp (hgt.not.mp (List.lt_irrefl _)))
      (Nat.not_lt.mp (hlt.not.mp (List.lt_irrefl _)))
  · rintro rfl
    exact List.le_antisymm (hgt.not.mpr (Nat.lt_irrefl _)) (hlt.not.mpr (Nat.lt_irrefl _))

namespace Text

/-- A number below ten is one digit. -/
theorem padded_one {n : Nat} (h : n < 10) : padded 1 n = [n.digitChar] := by
  rw [padded, Nat.toDigits_of_lt_base h]
  rfl

/-- The last digit stands after the digits of a tenth of the number. -/
theorem padded_succ (width n : Nat) :
    padded (width + 2) n = padded (width + 1) (n / 10) ++ [(n % 10).digitChar] := by
  rcases Nat.lt_or_ge n 10 with hlt | hle
  · rw [padded, padded, Nat.div_eq_of_lt hlt, Nat.mod_eq_of_lt hlt, Nat.toDigits_of_lt_base hlt,
      Nat.toDigits_of_lt_base (by decide)]
    exact congrArg (· ++ [n.digitChar]) (List.replicate_succ' (n := width) (a := '0'))
  · rw [padded, padded, Nat.toDigits_of_base_le (by decide) hle]
    simp

/-- A digit is one octet. -/
theorem utf8_digitChar {n : Nat} (h : n < 10) : utf8 [n.digitChar] = [UInt8.ofNat (48 + n)] := by
  revert h n
  decide

/-- The octets of digits are in order as the digits are. -/
theorem utf8_digitChar_lt_iff {n m : Nat} (hn : n < 10) (hm : m < 10) :
    utf8 [n.digitChar] < utf8 [m.digitChar] ↔ n < m := by
  have h : ∀ n < 10, ∀ m < 10, utf8 [n.digitChar] < utf8 [m.digitChar] ↔ n < m := by decide
  exact h n hn m hm

/-- A number that fits has as many octets as it has digits. -/
theorem length_utf8_padded {width n : Nat} (h : n < 10 ^ (width + 1)) :
    (utf8 (padded (width + 1) n)).length = width + 1 := by
  induction width generalizing n with
  | zero =>
    rw [padded_one h, utf8_digitChar h]
    rfl
  | succ width ih =>
    rw [padded_succ, utf8_append, List.length_append, ih (by omega),
      utf8_digitChar (Nat.mod_lt n (by decide))]
    rfl

/-- The octets of numbers that fit are in order as the numbers are. -/
theorem utf8_padded_lt_iff {width n m : Nat} (hn : n < 10 ^ (width + 1))
    (hm : m < 10 ^ (width + 1)) :
    utf8 (padded (width + 1) n) < utf8 (padded (width + 1) m) ↔ n < m := by
  induction width generalizing n m with
  | zero => rw [padded_one hn, padded_one hm, utf8_digitChar_lt_iff hn hm]
  | succ width ih =>
    have hn' : n / 10 < 10 ^ (width + 1) := by omega
    have hm' : m / 10 < 10 ^ (width + 1) := by omega
    rw [padded_succ, padded_succ, utf8_append, utf8_append,
      append_lt_append_iff ((length_utf8_padded hn').trans (length_utf8_padded hm').symm),
      ih hn' hm', eq_iff_of_lt_iff (ih hn' hm') (ih hm' hn'),
      utf8_digitChar_lt_iff (Nat.mod_lt n (by decide)) (Nat.mod_lt m (by decide))]
    omega

end Text

namespace CompletionItem

/-! ## Scores and places -/

/-- The number of a score in a sort text. -/
def steps (score : Rat) : Nat :=
  Scale.round (Scale.clamp score * Scale.ofInt scoreSteps)

/-- The higher score has no lower number. -/
theorem steps_mono {score other : Rat} (h : score ≤ other) : steps score ≤ steps other := by
  have hclamp : Scale.clamp score ≤ Scale.clamp other := Rank.clamp_mono h
  have hscale : (0 : Rat) ≤ Scale.ofInt scoreSteps := by decide +kernel
  refine Int.toNat_le_toNat (Rat.floor_monotone ?_)
  have hmul := mul_le_mul_of_nonneg_right hclamp hscale
  linarith

/-- No number is above the largest one. -/
theorem steps_le (score : Rat) : steps score ≤ scoreSteps := by
  have hscale : (Scale.ofInt scoreSteps : Rat) = 999999 := by decide +kernel
  have hclamp := (Rank.clamp_exact score).2
  refine Int.toNat_le.mpr (Int.lt_add_one_iff.mp (Rat.floor_lt_iff.mpr ?_))
  rw [hscale]
  norm_num [scoreSteps]
  linarith

/-- The octets of sort texts are in order as the numbers of the scores are, and as the capped places
are where these numbers are equal. -/
theorem utf8_sortTextOf_lt_iff {score other : Rat} {place next : Nat} :
    utf8 (sortTextOf score place) < utf8 (sortTextOf other next) ↔
      steps score < steps other ∨
        steps score = steps other ∧ min place placeLimit < min next placeLimit := by
  have hsteps (score : Rat) : steps score < 10 ^ (5 + 1) :=
    Nat.lt_succ_of_le (steps_le score)
  have hplace (place : Nat) : min place placeLimit < 10 ^ (3 + 1) :=
    Nat.lt_succ_of_le (Nat.min_le_right place placeLimit)
  have hoctets (score : Rat) (place : Nat) : utf8 (sortTextOf score place) =
      utf8 (Text.padded 6 (steps score)) ++
        (String.utf8EncodeChar '_' ++ utf8 (Text.padded 4 (min place placeLimit))) := by
    rw [sortTextOf, utf8_append, utf8_cons]
    rfl
  have hlt (score other : Rat) := Text.utf8_padded_lt_iff (hsteps score) (hsteps other)
  have hlength (score : Rat) := Text.length_utf8_padded (hsteps score)
  rw [hoctets, hoctets, append_lt_append_iff ((hlength score).trans (hlength other).symm),
    hlt, eq_iff_of_lt_iff (hlt score other) (hlt other score), append_lt_append_iff rfl,
    Text.utf8_padded_lt_iff (hplace place) (hplace next)]
  simp [List.lt_irrefl]

example : sortTextOf (1 : Rat) 12 = "999999_0012".toList := by decide +kernel

/-! ## Items in order -/

/-- What a client sorts by. -/
def sortOctets (item : CompletionItem) : List UInt8 :=
  utf8 item.sortText

variable {candidates : List (Candidate Rat)}

/-- The items of candidates in order of their scores are in order of their sort texts. -/
theorem pairwise_le_ofCandidates (range : TextRange)
    (h : candidates.Pairwise (·.score ≤ ·.score)) :
    (ofCandidates range candidates).Pairwise (·.sortOctets ≤ ·.sortOctets) := by
  rw [List.pairwise_iff_getElem]
  intro i j hi hj hij
  simp only [ofCandidates, List.length_mapIdx] at hi hj
  have hsteps := steps_mono (List.pairwise_iff_getElem.mp h i j hi hj hij)
  simp only [ofCandidates, List.getElem_mapIdx]
  intro hlt
  rcases utf8_sortTextOf_lt_iff.mp hlt with hless | ⟨-, hless⟩
  · exact absurd hsteps (Nat.not_le.mpr hless)
  · exact absurd hless (by omega)

/-- As many of them as places are told apart have different sort texts. -/
theorem pairwise_lt_take_ofCandidates (range : TextRange)
    (h : candidates.Pairwise (·.score ≤ ·.score)) :
    ((ofCandidates range candidates).take (placeLimit + 1)).Pairwise
      (·.sortOctets < ·.sortOctets) := by
  rw [List.pairwise_iff_getElem]
  intro i j hi hj hij
  simp only [ofCandidates, List.length_take, List.length_mapIdx, lt_min_iff] at hi hj
  have hsteps := steps_mono (List.pairwise_iff_getElem.mp h i j hi.2 hj.2 hij)
  simp only [ofCandidates, List.getElem_take, List.getElem_mapIdx]
  refine utf8_sortTextOf_lt_iff.mpr ?_
  rcases Nat.lt_or_eq_of_le hsteps with hless | heq
  · exact .inl hless
  · exact .inr ⟨heq, by omega⟩

/-- The completion list of a ranked list is in order of the octets of the sort texts, and strictly
so among its first ten thousand items. Hence every stable way of sorting by them keeps the list, and
any way does if there are no more items than these. -/
theorem ofCandidates_rankBy_inOrder (comparison : Rank.Comparison) (ranker : Ranker) (query : Text)
    (notes : List Path) (range : TextRange) :
    let ranked : List (Candidate Rat) := ranker.rankBy comparison query notes
    let items := ofCandidates range ranked
    items.Pairwise (·.sortOctets ≤ ·.sortOctets) ∧
      (items.take 10000).Pairwise (·.sortOctets < ·.sortOctets) ∧
      (∀ sorted, InOrder sortOctets (· ≤ ·) items sorted → sorted = items) ∧
      (items.length ≤ 10000 → ∀ sorted, sorted.Perm items →
        sorted.Pairwise (·.sortOctets ≤ ·.sortOctets) → sorted = items) := by
  intro ranked items
  have hscores := Ranker.pairwise_score_rankBy comparison ranker query notes
  have hle : items.Pairwise (·.sortOctets ≤ ·.sortOctets) := pairwise_le_ofCandidates range hscores
  have hlt : (items.take 10000).Pairwise (·.sortOctets < ·.sortOctets) :=
    pairwise_lt_take_ofCandidates range hscores
  refine ⟨hle, hlt, fun sorted hsorted => ?_, fun hlength sorted hperm hsorted => ?_⟩
  · exact hsorted.eq_of_pairwise (fun _ _ => List.le_antisymm) hle
  · rw [List.take_of_length_le hlength] at hlt
    -- No two items share a sort text, so that sorting leaves no choice.
    have hnodup : (items.map sortOctets).Nodup := by
      refine List.pairwise_map.mpr (hlt.imp fun {first second} hless heq => ?_)
      rw [heq] at hless
      exact List.lt_irrefl _ hless
    refine hperm.eq_of_pairwise (fun first second hfirst hsecond hle hge => ?_) hsorted hle
    exact List.inj_on_of_nodup_map hnodup (hperm.mem_iff.mp hfirst) hsecond
      (List.le_antisymm hle hge)

/-- A job, and what is only kept in a directory `jo`, stay in this order however they are sorted. -/
theorem ofCandidates_rankBy_inOrder_directory :
    let ranker : Ranker := ⟨⟨"/ws".toList⟩, .uniqueNames, none⟩
    let notes : List Path := [⟨"/ws/job.md".toList⟩, ⟨"/ws/jo/2024.md".toList⟩]
    let ranked : List (Candidate Rat) := ranker.rankBy .usual "jo".toList notes
    let items := ofCandidates (.onLine 0 2 4) ranked
    items.map (·.sortText) = ["033333_0000".toList, "907142_0001".toList] ∧
      items.Pairwise (·.sortOctets ≤ ·.sortOctets) ∧
      ∀ sorted, sorted.Perm items → sorted.Pairwise (·.sortOctets ≤ ·.sortOctets) →
        sorted = items := by
  intro ranker notes ranked items
  have hranked : ranked = ranker.found .usual "jo".toList notes :=
    Ranker.rankBy_eq_of_pairwise (by decide +kernel) (by decide +kernel)
  have htexts : items.map (·.sortText) = ["033333_0000".toList, "907142_0001".toList] := by
    simp only [items, hranked]
    decide +kernel
  have hlength : items.length = 2 := by simpa using congrArg List.length htexts
  obtain ⟨hle, -, -, hkept⟩ :=
    ofCandidates_rankBy_inOrder .usual ranker "jo".toList notes (.onLine 0 2 4)
  exact ⟨htexts, hle, hkept (hlength.trans_le (by decide))⟩

end CompletionItem
end LinkedNotes
