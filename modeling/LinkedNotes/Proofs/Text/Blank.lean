import LinkedNotes.Proofs.Text.Lines
import LinkedNotes.Proofs.Text.Lowercase
import LinkedNotes.Text.Alphanumeric

/-!
# Blank texts

A text trims to nothing exactly when it is blank. Main statement: lower case leaves blanks alone,
so no letter or digit comes out of a blank text.
-/

namespace LinkedNotes.Text

/-- Two sets of characters have none in common when no two of their ranges overlap. -/
theorem inRanges_eq_false_of_disjoint {first second : List (Nat × Nat)}
    (hdisjoint : ∀ a ∈ first, ∀ b ∈ second, a.2 < b.1 ∨ b.2 < a.1) {c : Char}
    (h : inRanges first c = true) : inRanges second c = false := by
  rw [Bool.eq_false_iff]
  intro hsecond
  obtain ⟨a, ha, hac⟩ := inRanges_eq_true_iff.mp h
  obtain ⟨b, hb, hbc⟩ := inRanges_eq_true_iff.mp hsecond
  have hab := hdisjoint a ha b hb
  omega

/-- A blank is neither a letter nor a digit. -/
theorem isAlphanumeric_of_isBlank {c : Char} (h : isBlank c = true) : isAlphanumeric c = false :=
  inRanges_eq_false_of_disjoint (by decide +kernel) h

/-- No blank differs from its lower case. -/
theorem lowerOne_of_isBlank {c : Char} (h : isBlank c = true) : lowerOne c = c := by
  have hdisjoint : ∀ run ∈ caseRuns, ∀ range ∈ blankRanges,
      run.last < range.1 ∨ range.2 < run.first := by decide +kernel
  obtain ⟨range, hrange, hc⟩ := inRanges_eq_true_iff.mp h
  unfold lowerOne
  split
  · next run hrun =>
    have hrun' := hdisjoint run (List.mem_of_find?_eq_some hrun) range hrange
    have hholds := List.find?_some hrun
    simp only [CaseRun.holds, Bool.and_eq_true, decide_eq_true_eq] at hholds
    omega
  · rfl

/-- A blank is its own lower case wherever it stands. -/
theorem isLower_of_isBlank {c : Char} (h : isBlank c = true) : IsLower c where
  ne_sigma := fun heq => by
    rw [heq] at h
    exact absurd h (by decide)
  lowerChar_eq := by
    rw [lowerChar, lowerOne_of_isBlank h, if_neg]
    intro heq
    rw [heq] at h
    exact absurd h (by decide)

/-- A blank text is its own lower case. -/
theorem lowerAfter_of_isBlank {text : Text} (h : ∀ c ∈ text, isBlank c = true) (before : Text) :
    lowerAfter before text = text :=
  lowerAfter_of_isLower (fun c hc => isLower_of_isBlank (h c hc)) before

/-- A sigma does not look past blanks. -/
theorem meetsCased_append_of_isBlank {blanks : Text} (h : ∀ c ∈ blanks, isBlank c = true)
    (text : Text) : meetsCased (text ++ blanks) = meetsCased text := by
  have hignored : ∀ c ∈ blanks, inRanges caseIgnorableRanges c = false := fun c hc =>
    inRanges_eq_false_of_disjoint (by decide +kernel) (h c hc)
  have huncased : ∀ c ∈ blanks, inRanges casedRanges c = false := fun c hc =>
    inRanges_eq_false_of_disjoint (by decide +kernel) (h c hc)
  simp only [meetsCased, List.dropWhile_append]
  cases hrest : text.dropWhile (inRanges caseIgnorableRanges) with
  | cons c rest => rfl
  | nil =>
    cases blanks with
    | nil => rfl
    | cons c rest =>
      rw [List.isEmpty_nil, if_pos rfl, List.dropWhile_cons_of_neg (by simp [hignored])]
      exact huncased c List.mem_cons_self

/-- Blanks before a text do not matter for its lower case. -/
theorem lowerAfter_append_of_isBlank {blanks : Text} (h : ∀ c ∈ blanks, isBlank c = true)
    (before text : Text) : lowerAfter (before ++ blanks) text = lowerAfter before text := by
  induction text generalizing before with
  | nil => rfl
  | cons c rest ih =>
    rw [lowerAfter, lowerAfter, meetsCased_append_of_isBlank h, ← List.cons_append, ih]

/-- Blanks behind a text do not matter for its lower case and stay as they are. -/
theorem lowerAfter_blanks {blanks : Text} (h : ∀ c ∈ blanks, isBlank c = true)
    (before text : Text) :
    lowerAfter before (text ++ blanks) = lowerAfter before text ++ blanks := by
  induction text generalizing before with
  | nil => exact lowerAfter_of_isBlank h before
  | cons c rest ih =>
    rw [List.cons_append, lowerAfter, lowerAfter, meetsCased_append_of_isBlank h, ih,
      List.append_assoc]

/-- Trimming adds nothing. -/
theorem mem_of_mem_trim {text : Text} {c : Char} (h : c ∈ trim text) : c ∈ text := by
  rw [trim, trimEnd, dropEndWhile, List.mem_reverse] at h
  have hstart := List.mem_reverse.mp ((List.dropWhile_sublist isBlank).subset h)
  exact (List.dropWhile_sublist isBlank).subset hstart

/-- Trimming takes blanks off the two ends. -/
theorem exists_eq_append_trim (text : Text) :
    ∃ left right, text = left ++ trim text ++ right ∧ (∀ c ∈ left, isBlank c = true) ∧
      ∀ c ∈ right, isBlank c = true := by
  let rest := trimStart text
  have hrest : trim text ++ (rest.reverse.takeWhile isBlank).reverse = rest := by
    rw [trim, trimEnd, dropEndWhile, ← List.reverse_append, List.takeWhile_append_dropWhile,
      List.reverse_reverse]
  refine ⟨text.takeWhile isBlank, (rest.reverse.takeWhile isBlank).reverse, ?_,
    fun c => List.mem_takeWhile_imp, fun c hc => ?_⟩
  · rw [List.append_assoc, hrest]
    exact List.takeWhile_append_dropWhile.symm
  · exact List.mem_takeWhile_imp (List.mem_reverse.mp hc)

/-- Trimming a text only takes blanks from its lower case. -/
theorem exists_lower_eq_append_trim (text : Text) :
    ∃ left right, lower text = left ++ lower (trim text) ++ right ∧
      (∀ c ∈ left, isBlank c = true) ∧ ∀ c ∈ right, isBlank c = true := by
  obtain ⟨left, right, htext, hleft, hright⟩ := exists_eq_append_trim text
  have hlower : ∀ c ∈ left, IsLower c := fun c hc => isLower_of_isBlank (hleft c hc)
  have hreverse : ∀ c ∈ left.reverse, isBlank c = true := fun c hc =>
    hleft c (List.mem_reverse.mp hc)
  refine ⟨left, right, ?_, hleft, hright⟩
  conv_lhs => rw [htext]
  rw [lower, lowerAfter_blanks hright, lowerAfter_append_of_isLower hlower, List.append_nil,
    ← List.nil_append left.reverse, lowerAfter_append_of_isBlank hreverse, lower]

/-- Only blank texts trim to nothing. -/
theorem isBlank_of_trim_eq_nil {text : Text} (h : trim text = []) :
    ∀ c ∈ text, isBlank c = true := by
  have hstart : trimStart text = [] := by
    simp only [trim, trimEnd, dropEndWhile, List.reverse_eq_nil_iff, List.dropWhile_eq_nil_iff,
      List.mem_reverse] at h
    cases hrest : trimStart text with
    | nil => rfl
    | cons c rest =>
      -- What is left after trimming the start would start with no blank.
      have hhead := List.head?_dropWhile_not isBlank text
      rw [hrest] at h
      rw [trimStart] at hrest
      have hc : isBlank c = false := by simpa only [hrest, List.head?_cons] using hhead
      rw [h c List.mem_cons_self] at hc
      cases hc
  rwa [trimStart, List.dropWhile_eq_nil_iff] at hstart

/-- A blank at the end does not matter for what is left after trimming. -/
theorem trim_concat_of_isBlank {init : Text} {c : Char} (h : isBlank c = true) :
    trim (init ++ [c]) = trim init := by
  have hend : ∀ text : Text, trimEnd (text ++ [c]) = trimEnd text := fun text => by
    rw [trimEnd, trimEnd, dropEndWhile, dropEndWhile, List.reverse_append, List.reverse_singleton,
      List.singleton_append, List.dropWhile_cons_of_pos h]
  by_cases hstart : trimStart init = []
  · have hnil : trimStart (init ++ [c]) = [] := by
      rw [trimStart] at hstart
      simp [trimStart, List.dropWhile_append, hstart, h]
    rw [trim, trim, hnil, hstart]
  · have hsome : trimStart (init ++ [c]) = trimStart init ++ [c] := by
      rw [trimStart] at hstart
      simp [trimStart, List.dropWhile_append, hstart]
    rw [trim, trim, hsome, hend]

/-- A carriage return at the end does not matter for what is left after trimming. -/
theorem trim_dropReturn (line : Text) : trim (dropReturn line) = trim line := by
  unfold dropReturn
  split
  · next hlast =>
    obtain ⟨init, rfl⟩ := List.getLast?_eq_some_iff.mp hlast
    rw [List.dropLast_concat]
    exact (trim_concat_of_isBlank (by decide)).symm
  · rfl

end LinkedNotes.Text
