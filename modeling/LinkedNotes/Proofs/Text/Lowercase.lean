import LinkedNotes.Text.Lowercase
import Mathlib

/-!
# What lower case does to single characters

The lower case of a character depends on its neighbours only for a sigma. Main statements: the lower
case of a text falls apart at every place, a slash is the lower case of a slash alone, so the
pieces of a path keep their places, and a text in lower case is its own lower case wherever it
stands.
-/

namespace LinkedNotes.Text

/-! ## Single characters -/

namespace CaseRun

/-- The code point that the first character of a run leads to. -/
def low (run : CaseRun) : Nat :=
  (run.first + run.offset).toNat

/-- The code point that the last character of a run leads to. -/
def high (run : CaseRun) : Nat :=
  (run.last + run.offset).toNat

/-- Whether a run leads into no character of another one, but before it, behind it, or between its
characters. -/
def misses (run other : CaseRun) : Bool :=
  run.high.blt other.first || other.last.blt run.low ||
    (other.step == 2 && (run.step == 2 || run.first == run.last) &&
      (run.low + other.first) % 2 == 1)

/-- Whether a run leads to characters, and not to `İ`. -/
def isSound (run : CaseRun) : Bool :=
  (run.high.blt 0xD800 || Nat.blt 0xDFFF run.low && run.high.blt 0x110000) &&
    (run.high.blt 0x130 || Nat.blt 0x130 run.low)

end CaseRun

/-- No run leads to the signs before the small letters. -/
theorem le_target_of_mem_caseRuns : ∀ run ∈ caseRuns, 97 ≤ (run.first : Int) + run.offset := by
  decide +kernel

/-- No run leads into a run. -/
theorem all_misses : caseRuns.all (fun run => caseRuns.all run.misses) = true := by
  decide +kernel

/-- Each run leads to characters. -/
theorem all_isSound : caseRuns.all CaseRun.isSound = true := by
  decide +kernel

/-- A character in no run is its own lower case, and the offset of its run leads from one in a run
to its lower case. -/
theorem lowerOne_cases (c : Char) :
    lowerOne c = c ∨ ∃ run ∈ caseRuns, run.holds c.toNat = true ∧
      ((lowerOne c).toNat : Int) = c.toNat + run.offset := by
  unfold lowerOne
  split
  · next run hrun =>
    have hmem := List.mem_of_find?_eq_some hrun
    have hholds := List.find?_some hrun
    refine .inr ⟨run, hmem, hholds, ?_⟩
    have htarget := le_target_of_mem_caseRuns run hmem
    have hsound := List.all_eq_true.mp all_isSound run hmem
    simp only [CaseRun.holds, Bool.and_eq_true, decide_eq_true_eq] at hholds
    simp only [CaseRun.isSound, CaseRun.low, CaseRun.high, Bool.and_eq_true, Bool.or_eq_true,
      Nat.blt_eq] at hsound
    have hvalid : (c.toNat + run.offset).toNat.isValidChar := by
      rw [Nat.isValidChar]
      omega
    rw [Char.toNat_ofNat, if_pos hvalid]
    omega
  · exact .inl rfl

/-- The lower case of a character is the character or lies behind the signs before `a`. -/
theorem lowerOne_eq_or (c : Char) : lowerOne c = c ∨ 97 ≤ (lowerOne c).toNat := by
  refine (lowerOne_cases c).imp_right fun ⟨run, hrun, hholds, hcode⟩ => ?_
  have htarget := le_target_of_mem_caseRuns run hrun
  simp only [CaseRun.holds, Bool.and_eq_true, decide_eq_true_eq] at hholds
  omega

/-- The lower case of a character is its own lower case. -/
theorem lowerOne_lowerOne (c : Char) : lowerOne (lowerOne c) = lowerOne c := by
  rcases lowerOne_cases c with heq | ⟨run, hrun, hholds, hcode⟩
  · rw [heq, heq]
  · rcases lowerOne_cases (lowerOne c) with heq | ⟨other, hother, hholds', -⟩
    · exact heq
    · -- The lower case would be in a run, which no run leads into.
      have htarget := le_target_of_mem_caseRuns run hrun
      have hmisses := List.all_eq_true.mp (List.all_eq_true.mp all_misses run hrun) other hother
      simp only [CaseRun.holds, Bool.and_eq_true, decide_eq_true_eq, beq_iff_eq] at hholds hholds'
      simp only [CaseRun.misses, CaseRun.low, CaseRun.high, Bool.and_eq_true, Bool.or_eq_true,
        Nat.blt_eq, beq_iff_eq] at hmisses
      rcases hmisses with (hbefore | hbehind) | ⟨⟨hstep, hstep' | hone⟩, hodd⟩
      · omega
      · omega
      · rw [hstep'] at hholds
        rw [hstep] at hholds'
        omega
      · rw [hstep] at hholds'
        omega

/-- No other character has `İ` as its lower case. -/
theorem lowerOne_ne_dotted {c : Char} (h : c ≠ 'İ') : lowerOne c ≠ 'İ' := by
  intro heq
  rcases lowerOne_cases c with hself | ⟨run, hrun, hholds, hcode⟩
  · exact h (hself.symm.trans heq)
  · have hsound := List.all_eq_true.mp all_isSound run hrun
    have hdotted : 'İ'.toNat = 0x130 := by decide
    rw [heq, hdotted] at hcode
    simp only [CaseRun.holds, Bool.and_eq_true, decide_eq_true_eq] at hholds
    simp only [CaseRun.isSound, CaseRun.low, CaseRun.high, Bool.and_eq_true, Bool.or_eq_true,
      Nat.blt_eq] at hsound
    omega

/-- Only a slash has a slash as its lower case. -/
theorem slash_mem_lowerChar {c : Char} : '/' ∈ lowerChar c ↔ c = '/' := by
  constructor
  · intro h
    unfold lowerChar at h
    split at h
    · exact absurd h (by decide)
    · have he : '/' = lowerOne c := by simpa using h
      rcases lowerOne_eq_or c with hc | hc
      · exact hc ▸ he.symm
      · rw [← he] at hc
        exact absurd hc (by decide)
  · rintro rfl
    decide +kernel

/-- The ASCII capitals by their numbers. -/
theorem isUpper_iff_toNat (c : Char) : c.isUpper = true ↔ 65 ≤ c.toNat ∧ c.toNat ≤ 90 := by
  simp [Char.isUpper, UInt32.le_iff_toNat_le, ← Char.toNat_val]

/-- An ASCII capital becomes the small letter. -/
theorem lowerOne_of_isUpper {c : Char} (h : c.isUpper = true) : 97 ≤ (lowerOne c).toNat := by
  obtain ⟨hlow, hhigh⟩ := (isUpper_iff_toNat c).mp h
  have hfind : caseRuns.find? (·.holds c.toNat) = some ⟨0x41, 0x5A, 1, 32⟩ := by
    rw [caseRuns, List.find?_cons_of_pos]
    simp [CaseRun.holds, hlow, hhigh, Nat.mod_one]
  have hcode : ((c.toNat : Int) + 32).toNat = c.toNat + 32 := by omega
  rw [lowerOne, hfind]
  simp only [hcode]
  rw [Char.toNat_ofNat, if_pos (.inl (by omega))]
  omega

/-! ## Texts -/

/-- The lower case of a text is that of a first part and of the rest after this part. -/
theorem exists_lowerAfter_append (before first rest : List Char) :
    ∃ lowered, lowerAfter before (first ++ rest) =
      lowered ++ lowerAfter (first.reverse ++ before) rest := by
  induction first generalizing before with
  | nil => exact ⟨[], rfl⟩
  | cons c first ih =>
    obtain ⟨lowered, h⟩ := ih (c :: before)
    simp only [List.cons_append, lowerAfter, h, List.reverse_cons, List.append_assoc]
    exact ⟨_, (List.append_assoc _ _ _).symm⟩

/-- Lower case neither makes nor loses a slash. -/
theorem slash_mem_lowerAfter (before text : List Char) :
    '/' ∈ lowerAfter before text ↔ '/' ∈ text := by
  induction text generalizing before with
  | nil => simp [lowerAfter]
  | cons c rest ih =>
    rw [lowerAfter, List.mem_append, ih, List.mem_cons, eq_comm (a := '/')]
    split
    · next hc =>
      subst hc
      split <;> simp
    · rw [slash_mem_lowerChar]

/-- A character of a lower case is one of the two small sigmas or comes from another character. -/
theorem exists_of_mem_lowerAfter {before text : List Char} {c : Char}
    (h : c ∈ lowerAfter before text) :
    c = 'ς' ∨ c = 'σ' ∨ ∃ d ∈ text, d ≠ 'Σ' ∧ c ∈ lowerChar d := by
  induction text generalizing before with
  | nil => exact absurd h List.not_mem_nil
  | cons d rest ih =>
    rw [lowerAfter, List.mem_append] at h
    rcases h with h | h
    · split at h
      · rw [List.mem_singleton] at h
        subst h
        split
        · exact .inl rfl
        · exact .inr (.inl rfl)
      · next hd => exact .inr (.inr ⟨d, List.mem_cons_self, hd, h⟩)
    · refine (ih h).imp_right (Or.imp_right fun ⟨e, he, hrest⟩ => ?_)
      exact ⟨e, List.mem_cons_of_mem d he, hrest⟩

/-- What comes from a character but a sigma is in the lower case of every text with it. -/
theorem mem_lowerAfter_of_mem_lowerChar {before text : List Char} {c d : Char} (hd : d ∈ text)
    (hsigma : d ≠ 'Σ') (h : c ∈ lowerChar d) : c ∈ lowerAfter before text := by
  induction text generalizing before with
  | nil => exact absurd hd List.not_mem_nil
  | cons e rest ih =>
    rw [lowerAfter, List.mem_append]
    rcases List.mem_cons.mp hd with rfl | hd
    · rw [if_neg hsigma]
      exact .inl h
    · exact .inr (ih hd)

/-- Whether a character is its own lower case wherever it stands. -/
structure IsLower (c : Char) : Prop where
  /-- It is no capital sigma, whose lower case depends on its neighbours. -/
  ne_sigma : c ≠ 'Σ'
  /-- It is its own lower case. -/
  lowerChar_eq : lowerChar c = [c]

instance (c : Char) : Decidable (IsLower c) :=
  decidable_of_iff (c ≠ 'Σ' ∧ lowerChar c = [c]) ⟨fun h => ⟨h.1, h.2⟩, fun h => ⟨h.1, h.2⟩⟩

/-- A first part of such characters is its own lower case. -/
theorem lowerAfter_append_of_isLower {first : List Char} (h : ∀ c ∈ first, IsLower c)
    (before rest : List Char) :
    lowerAfter before (first ++ rest) = first ++ lowerAfter (first.reverse ++ before) rest := by
  induction first generalizing before with
  | nil => rfl
  | cons c first ih =>
    obtain ⟨hc, hfirst⟩ := List.forall_mem_cons.mp h
    rw [List.cons_append, lowerAfter, ih hfirst, if_neg hc.ne_sigma, hc.lowerChar_eq,
      List.reverse_cons, List.append_assoc, List.singleton_append, List.singleton_append,
      List.cons_append]

/-- A text of such characters is its own lower case. -/
theorem lowerAfter_of_isLower {text : List Char} (h : ∀ c ∈ text, IsLower c)
    (before : List Char) : lowerAfter before text = text := by
  have hall := lowerAfter_append_of_isLower h before []
  simpa only [lowerAfter, List.append_nil] using hall

/-- A lower case has only such characters. -/
theorem isLower_of_mem_lowerAfter {before text : List Char} {c : Char}
    (h : c ∈ lowerAfter before text) : IsLower c := by
  rcases exists_of_mem_lowerAfter h with rfl | rfl | ⟨d, -, -, hd⟩
  · decide +kernel
  · decide +kernel
  · rw [lowerChar] at hd
    split at hd
    · simp only [List.mem_cons, List.not_mem_nil, or_false] at hd
      rcases hd with rfl | rfl <;> decide +kernel
    · next hdotted =>
      rw [List.mem_singleton] at hd
      subst hd
      refine ⟨fun hsigma => ?_, ?_⟩
      · -- The capital sigma is not its own lower case.
        have hself := lowerOne_lowerOne d
        rw [hsigma] at hself
        exact absurd hself (by decide +kernel)
      · rw [lowerChar, if_neg (lowerOne_ne_dotted hdotted), lowerOne_lowerOne]

/-- Such a character is none of the ASCII capitals. -/
theorem IsLower.isUpper {c : Char} (h : IsLower c) : c.isUpper = false := by
  have hself : lowerOne c = c := by
    have heq := h.lowerChar_eq
    rw [lowerChar] at heq
    split at heq
    · cases heq
    · exact List.singleton_injective heq
  rw [Bool.eq_false_iff]
  intro hupper
  have hsmall := lowerOne_of_isUpper hupper
  have hcapital := (isUpper_iff_toNat c).mp hupper
  rw [hself] at hsmall
  omega

/-- A text in lower case has no ASCII capitals. -/
theorem isUpper_of_mem_lowerAfter {before text : List Char} {c : Char}
    (h : c ∈ lowerAfter before text) : c.isUpper = false :=
  (isLower_of_mem_lowerAfter h).isUpper

end LinkedNotes.Text
