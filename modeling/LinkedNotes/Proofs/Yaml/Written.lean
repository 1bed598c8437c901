import LinkedNotes.Proofs.Yaml.Block
import LinkedNotes.Proofs.Yaml.Nodes
import LinkedNotes.Proofs.Yaml.Plain
import LinkedNotes.Proofs.Yaml.SingleQuoted

/-!
# How texts are written

A writer chooses one of four ways for a text, each of which is read back.
-/

namespace LinkedNotes.Yaml.Tree

open Scalar

/-- How a text may be written, with the indentation of its further lines. -/
inductive Written (indent : Nat) : Text → Style → Text → Prop where
  /-- Without quotes. -/
  | plain {text : Text} (hplain : canBePlain text = true) (hne : text ≠ []) :
    Written indent text .plain text
  /-- In single quotes. -/
  | single {text : Text} (htext : Lined text) :
    Written indent text .singleQuoted (singleQuoted indent text)
  /-- In double quotes. -/
  | double (text : Text) : Written indent text .doubleQuoted (doubleQuoted text)
  /-- As a block. -/
  | literal {text : Text} (hprintable : ∀ c ∈ text, isPrintable c = true) (hne : text ≠ []) :
    Written indent text .literal (block indent text)

/-- A text in quotes is written so. -/
theorem written_quoted (indent : Nat) {text : Text} (hline : '\n' ∉ text) :
    Written indent text (quotedStyle text) (quoted indent text) := by
  unfold quotedStyle quoted
  split_ifs with h
  · exact .double text
  · rw [Bool.or_eq_true, not_or, Bool.not_eq_true, Bool.not_eq_true] at h
    obtain ⟨hprintable, hends⟩ := needsEscapes_eq_false_iff.mp h.1
    exact .single ⟨hprintable, hline, hends, hasPair_eq_false_iff.mp h.2⟩

/-- Each text is written in one of these ways. -/
theorem written_scalar (indent : Nat) (text : Text) :
    Written indent text (scalarStyle text) (scalar indent text) := by
  unfold scalarStyle scalar
  split_ifs with hline hescapes hquotes
  · exact .double text
  · rw [Bool.or_eq_true, not_or, Bool.not_eq_true] at hescapes
    exact .literal (needsEscapes_eq_false_iff.mp hescapes.1).1 (List.ne_nil_of_mem hline)
  · exact written_quoted indent hline
  · rw [Bool.or_eq_true, not_or, Bool.not_eq_true', Bool.not_eq_false] at hquotes
    refine .plain hquotes.2 ?_
    rintro rfl
    exact hquotes.1 (by decide)

/-- The words for truth values are written without quotes. -/
theorem written_boolText (indent : Nat) (value : Bool) :
    Written indent (boolText value) .plain (boolText value) := by
  cases value
  · exact .plain (by decide) (by decide)
  · exact .plain (by decide) (by decide)

/-- Indentation does not change the end of a text. -/
theorem getLast?_indented (n : Nat) (fresh : Bool) (text : Text) :
    (indented n fresh text).getLast? = text.getLast? := by
  induction text generalizing fresh with
  | nil => rw [indented_nil]
  | cons c text ih =>
    have hcons (fresh : Bool) : (c :: indented n fresh text).getLast? = (c :: text).getLast? := by
      rw [List.getLast?_cons, List.getLast?_cons, ih]
    have hspaces : (spaces n ++ c :: indented n false text).getLast? = (c :: text).getLast? := by
      rw [List.getLast?_append_of_ne_nil _ (List.cons_ne_nil _ _), hcons]
    rw [indented]
    split_ifs
    · exact hcons true
    · exact hspaces
    · exact hcons false

/-- A block ends as its text does. -/
theorem lineEnd_block (indent : Nat) {text : Text} (hne : text ≠ []) :
    lineEnd (block indent text) = lineEnd text := by
  have hindented : indented indent true text ≠ [] := by
    intro hnil
    have hlast := getLast?_indented indent true text
    rw [hnil] at hlast
    exact hne (List.getLast?_eq_none_iff.mp hlast.symm)
  rw [block_eq, lineEnd_append hindented, lineEnd, lineEnd, getLast?_indented]

/-- A line ends with a break, its own or the one put behind it. -/
theorem line_eq (text : Text) : line text = text ++ lineEnd text := by
  rw [line, lineEnd]
  split
  · rw [List.append_nil]
  · rfl

/-- A line ends with a break. -/
theorem getLast?_line (text : Text) : (line text).getLast?.any isBreak = true := by
  rw [line]
  split
  · assumption
  · rw [List.getLast?_append_of_ne_nil _ (List.cons_ne_nil _ _)]
    rfl

/-- A text without a break gets one. -/
theorem line_of_unbroken {text : Text} (h : ∀ c ∈ text, isBreak c = false) :
    line text = text ++ ['\n'] := by
  rw [line_eq, lineEnd_of_unbroken h]

/-- The first character of a text does not matter for its end. -/
theorem line_cons (c : Char) {text : Text} (hne : text ≠ []) :
    line (c :: text) = c :: line text := by
  rw [line_eq, line_eq, ← List.singleton_append, lineEnd_append hne]
  rfl

/-! ## Characters -/

/-- Indentation puts in nothing but spaces. -/
theorem mem_of_mem_indented {n : Nat} {fresh : Bool} {text : Text} {c : Char}
    (h : c ∈ indented n fresh text) : c ∈ text ∨ c = ' ' := by
  induction text generalizing fresh with
  | nil => rw [indented_nil] at h; exact .inl h
  | cons d text ih =>
    have hcons {fresh : Bool} (hmem : c ∈ d :: indented n fresh text) :
        c ∈ d :: text ∨ c = ' ' := by
      rcases List.mem_cons.mp hmem with rfl | hmem
      · exact .inl List.mem_cons_self
      · exact (ih hmem).imp_left (List.mem_cons_of_mem d)
    rw [indented] at h
    split_ifs at h
    · exact hcons h
    · rcases List.mem_append.mp h with h | h
      · exact .inr (of_mem_spaces h)
      · exact hcons h
    · exact hcons h

/-- Escapes are written in characters that need none. -/
theorem isPrintable_of_mem_escaped {c d : Char} (h : d ∈ escaped c) : isPrintable d = true := by
  have hcode (letter : Char) (width : Nat) (hletter : isPrintable letter = true)
      (hmem : d ∈ '\\' :: letter :: hex width c.toNat) : isPrintable d = true := by
    rcases List.mem_cons.mp hmem with rfl | hmem
    · decide
    · rcases List.mem_cons.mp hmem with rfl | hmem
      · exact hletter
      · exact (of_mem_hex hmem).2
  unfold escaped at h
  split at h
  · next letter hletter =>
    have hall : ∀ names ∈ escapeLetters, isPrintable names.2 = true := by decide
    obtain ⟨before, after, hletters, -⟩ := List.lookup_eq_some_iff.mp hletter
    have hprintable : isPrintable letter = true := hall (c, letter) (by rw [hletters]; simp)
    rcases List.mem_cons.mp h with rfl | h
    · decide
    · exact List.mem_singleton.mp h ▸ hprintable
  · split_ifs at h with hprintable
    · exact List.mem_singleton.mp h ▸ hprintable
    · exact hcode 'x' 2 (by decide) h
    · exact hcode 'u' 4 (by decide) h
    · exact hcode 'U' 8 (by decide) h

variable {indent : Nat} {text written : Text} {style : Style}

/-- Whatever a text holds, it is written in characters that may stand in a document. -/
theorem Written.isPrintable (h : Written indent text style written) :
    ∀ c ∈ written, isPrintable c = true := by
  have hspace : Tree.isPrintable ' ' = true := by decide
  cases h with
  | plain hplain => exact (bare_of_canBePlain hplain).printable
  | single htext =>
    intro c hc
    rw [singleQuoted_eq] at hc
    simp only [List.mem_cons, List.mem_append, quotedLines, List.not_mem_nil, or_false] at hc
    rcases hc with rfl | (hc | hc) | rfl
    · decide
    · rcases mem_of_mem_indented hc with hc | rfl
      · exact htext.printable c (mem_of_mem_doubled hc)
      · exact hspace
    · split at hc
      · exact of_mem_spaces hc ▸ hspace
      · exact absurd hc List.not_mem_nil
    · decide
  | double =>
    intro c hc
    rw [doubleQuoted] at hc
    simp only [List.mem_cons, List.mem_append, List.not_mem_nil, or_false, List.cons_append] at hc
    rcases hc with rfl | hc | rfl
    · decide
    · obtain ⟨d, -, hmem⟩ := List.mem_flatMap.mp hc
      exact isPrintable_of_mem_escaped hmem
    · decide
  | literal hprintable =>
    intro c hc
    have hmark : (blockMark text).all Tree.isPrintable = true := by
      rw [blockMark]
      cases chompingOf text <;> cases hinted text <;> rfl
    rw [block_eq] at hc
    rcases List.mem_append.mp hc with hc | hc
    · exact List.all_eq_true.mp hmark c hc
    · rcases mem_of_mem_indented hc with hc | rfl
      · exact hprintable c hc
      · exact hspace

/-- No text is written as nothing. -/
theorem Written.ne_nil (h : Written indent text style written) : written ≠ [] := by
  cases h with
  | plain hplain hne => exact hne
  | single htext => exact List.cons_ne_nil _ _
  | double => exact List.cons_ne_nil _ _
  | literal hprintable hne => exact List.cons_ne_nil _ _

end LinkedNotes.Yaml.Tree
