import LinkedNotes.Proofs.Text.Blank

/-!
# Letters in lower case

Lower case leads from letters and digits to letters and digits. Main statement: a text of letters,
digits, blanks and hyphens stays one in lower case, apart from the letter `İ`, whose lower case is
an `i` with a combining dot, which is no letter.
-/

namespace LinkedNotes.Text

/-- Whether a run leads into a range of characters. -/
def CaseRun.leadsInto (run : CaseRun) (range : Nat × Nat) : Bool :=
  run.high.ble range.2 && range.1.ble run.low

/-- Each run leads to letters. -/
theorem all_leadsInto :
    caseRuns.all (fun run => alphanumericRanges.any run.leadsInto) = true := by
  decide +kernel

/-- The lower case of a letter or digit is one. -/
theorem isAlphanumeric_lowerOne {c : Char} (h : isAlphanumeric c = true) :
    isAlphanumeric (lowerOne c) = true := by
  rcases lowerOne_cases c with heq | ⟨run, hrun, hholds, hcode⟩
  · rwa [heq]
  · have htarget := le_target_of_mem_caseRuns run hrun
    obtain ⟨range, hrange, hleads⟩ :=
      List.any_eq_true.mp (List.all_eq_true.mp all_leadsInto run hrun)
    simp only [CaseRun.holds, Bool.and_eq_true, decide_eq_true_eq] at hholds
    simp only [CaseRun.leadsInto, CaseRun.low, CaseRun.high, Bool.and_eq_true,
      Nat.ble_eq] at hleads
    exact inRanges_eq_true_iff.mpr ⟨range, hrange, by omega, by omega⟩

/-- The dot that the lower case of `İ` has above its `i`. -/
def dotAbove : Char := '\u0307'

/-- The dot is no letter. -/
theorem isAlphanumeric_dotAbove : isAlphanumeric dotAbove = false := by
  decide +kernel

/-- The dot is in the lower case of every text with an `İ`. -/
theorem dotAbove_mem_lower {text : Text} (h : 'İ' ∈ text) : dotAbove ∈ lower text :=
  mem_lowerAfter_of_mem_lowerChar h (by decide) (by decide)

/-- Whether a character is a letter, a digit, a blank or a hyphen. -/
def IsPlain (c : Char) : Prop :=
  isAlphanumeric c = true ∨ isBlank c = true ∨ c = '-'

instance (c : Char) : Decidable (IsPlain c) :=
  inferInstanceAs (Decidable (_ ∨ _ ∨ _))

/-- The lower case of a text of letters, digits, blanks and hyphens is such a text, unless an `İ`
brings its dot. -/
theorem isPlain_of_mem_lower {text : Text} (h : ∀ c ∈ text, IsPlain c) (hdotted : 'İ' ∉ text)
    {c : Char} (hc : c ∈ lower text) : IsPlain c := by
  rcases exists_of_mem_lowerAfter hc with rfl | rfl | ⟨d, hd, -, hcd⟩
  · exact .inl (by decide +kernel)
  · exact .inl (by decide +kernel)
  · rw [lowerChar, if_neg (fun heq : d = 'İ' => hdotted (heq ▸ hd)), List.mem_singleton] at hcd
    subst hcd
    rcases h d hd with hd | hd | rfl
    · exact .inl (isAlphanumeric_lowerOne hd)
    · exact .inr (.inl (by rwa [lowerOne_of_isBlank hd]))
    · exact .inr (.inr (by decide +kernel))

end LinkedNotes.Text
