import LinkedNotes.Proofs.Yaml.Quoted

/-!
# Texts in single quotes

In single quotes a quote is doubled, and everything else stands for itself. A line break other than
the line feed is kept, and the indentation after it does not count, so neither spaces before nor
after a break may belong to the text.
-/

namespace LinkedNotes.Yaml

open Tree

namespace Tree

/-- A text with its quotes doubled. -/
def doubled (text : Text) : Text :=
  text.flatMap fun c => if c = '\'' then ['\'', '\''] else [c]

/-- The lines of a text between single quotes. -/
def quotedLines (indent : Nat) (text : Text) : Text :=
  indented indent false (doubled text) ++
    if text.getLast?.any isBreak then spaces indent else []

/-- What is written in single quotes are these lines. -/
theorem singleQuoted_eq (indent : Nat) (text : Text) :
    singleQuoted indent text = '\'' :: (quotedLines indent text ++ ['\'']) := by
  simp only [singleQuoted, quotedLines, doubled, List.cons_append, List.append_assoc]

/-- The parts of a text are doubled one after the other. -/
theorem doubled_append (s t : Text) : doubled (s ++ t) = doubled s ++ doubled t :=
  List.flatMap_append

/-- A text without quotes stays as it is. -/
theorem doubled_of_ne {text : Text} (h : ∀ c ∈ text, c ≠ '\'') : doubled text = text := by
  induction text with
  | nil => rfl
  | cons c text ih =>
    have hrest : doubled text = text := ih fun d hd => h d (List.mem_cons_of_mem _ hd)
    have hc : doubled (c :: text) = [c] ++ doubled text := by
      rw [doubled, List.flatMap_cons, if_neg (h c List.mem_cons_self)]
      rfl
    rw [hc, hrest, List.singleton_append]

/-- Doubling quotes puts in no other characters. -/
theorem mem_of_mem_doubled {text : Text} {c : Char} (h : c ∈ doubled text) : c ∈ text := by
  obtain ⟨d, hd, hmem⟩ := List.mem_flatMap.mp h
  have hcd : c = d := by
    split at hmem
    · next heq => simpa [heq] using hmem
    · simpa using hmem
  exact hcd ▸ hd

/-- Doubling quotes takes up no less space. -/
theorem length_le_doubled (text : Text) : text.length ≤ (doubled text).length := by
  induction text with
  | nil => exact Nat.le_refl _
  | cons c text ih =>
    rw [doubled, List.flatMap_cons, List.length_append, List.length_cons]
    unfold doubled at ih
    split <;> simp only [List.length_cons, List.length_nil] <;> omega

/-- A text begins as it does with its quotes doubled. -/
theorem head?_doubled (text : Text) : (doubled text).head? = text.head? := by
  cases text with
  | nil => rfl
  | cons c text =>
    rw [doubled, List.flatMap_cons]
    split
    · next heq => rw [heq]; rfl
    · rfl

variable {indent : Nat} {rest : Text}

@[simp]
theorem quotedLines_nil : quotedLines indent [] = [] := by
  simp [quotedLines, doubled]

/-- The lines of a text begin as the text does. -/
theorem head?_quotedLines (text : Text) : (quotedLines indent text).head? = text.head? := by
  cases text with
  | nil => rw [quotedLines_nil]
  | cons c text =>
    rw [quotedLines, List.head?_append, head?_indented, head?_doubled]
    rfl

/-- The lines of a text take up no less space than the text. -/
theorem length_le_quotedLines (indent : Nat) (text : Text) :
    text.length ≤ (quotedLines indent text).length := by
  have hindented := length_le_indented indent false (doubled text)
  have hdoubled := length_le_doubled text
  rw [quotedLines, List.length_append]
  omega

/-- Inside of a line quotes are doubled. -/
theorem quotedLines_append_of_unbroken {word : Text} (h : ∀ c ∈ word, isBreak c = false) :
    quotedLines indent (word ++ rest) = doubled word ++ quotedLines indent rest := by
  have hlast : (word ++ rest).getLast?.any isBreak = rest.getLast?.any isBreak := by
    cases rest with
    | nil =>
      rw [List.append_nil]
      cases hword : word.getLast? with
      | none => rfl
      | some c => exact h c (List.mem_of_getLast? hword)
    | cons c rest => rw [List.getLast?_append_of_ne_nil _ (List.cons_ne_nil c rest)]
  rw [quotedLines, hlast, doubled_append,
    indented_append_of_unbroken (fun c hc => h c (mem_of_mem_doubled hc)), List.append_assoc]
  rfl

/-- After line breaks there is indentation. -/
theorem quotedLines_append_of_breaks {c : Char} {breaks : Text}
    (h : ∀ d ∈ c :: breaks, isBreak d = true) (hrest : ∀ d ∈ rest.head?, isBreak d = false) :
    quotedLines indent (c :: breaks ++ rest) =
      c :: breaks ++ (spaces indent ++ quotedLines indent rest) := by
  have hdoubled : doubled (c :: breaks ++ rest) = c :: breaks ++ doubled rest := by
    rw [doubled_append, doubled_of_ne]
    rintro d hd rfl
    exact absurd (h _ hd) (by decide)
  rw [quotedLines, hdoubled, indented_append_of_breaks h]
  cases rest with
  | nil =>
    have hlast : (c :: breaks).getLast?.any isBreak = true := by
      cases hbreaks : (c :: breaks).getLast? with
      | none => simp at hbreaks
      | some d => exact h d (List.mem_of_getLast? hbreaks)
    rw [List.append_nil, hlast, quotedLines_nil]
    simp [doubled]
  | cons d rest =>
    have hne : doubled (d :: rest) ≠ [] := by
      intro heq
      have hhead := head?_doubled (d :: rest)
      rw [heq] at hhead
      cases hhead
    rw [List.getLast?_append_of_ne_nil _ (List.cons_ne_nil d rest),
      indented_of_line hne (by rwa [head?_doubled]), quotedLines]
    simp

end Tree

namespace Scalar

/-- A quote is read from two. -/
theorem quotedWord?_two_quotes {cursor : Cursor} {fuel : Nat} {done rest : Text}
    (hrest : cursor.rest = '\'' :: '\'' :: rest) :
    quotedWord? true (fuel + 1) done cursor =
      quotedWord? true fuel (done ++ ['\'']) (cursor.advance ['\'', '\'']) := by
  have hunbroken : ∀ c ∈ ['\'', '\''], isBreak c = false := by simp [isBreak]
  rw [quotedWord?, hrest, Cursor.advance_eq_skipMany hunbroken]
  simp [show (isBlank '\'' || isBreak '\'') = false from by decide]

/-- A word is read from where its quotes are doubled. -/
theorem quotedWord?_doubled {cursor : Cursor} {fuel : Nat} {word done rest : Text}
    (hword : ∀ c ∈ word, isBlank c = false ∧ isBreak c = false)
    (hrest : cursor.rest = doubled word ++ rest) :
    quotedWord? true (fuel + word.length) done cursor =
      quotedWord? true fuel (done ++ word) (cursor.advance (doubled word)) := by
  induction word generalizing cursor done with
  | nil =>
    rw [List.append_nil]
    rfl
  | cons c word ih =>
    have hmore : ∀ d ∈ word, isBlank d = false ∧ isBreak d = false :=
      fun d hd => hword d (List.mem_cons_of_mem _ hd)
    have hdoubled : doubled (c :: word) =
        (if c = '\'' then ['\'', '\''] else [c]) ++ doubled word := by
      rw [doubled, List.flatMap_cons]
      rfl
    rw [hdoubled, List.append_assoc] at hrest
    have hafter := Cursor.rest_advance_of_eq hrest
    rw [List.length_cons, ← Nat.add_assoc, hdoubled, Cursor.advance_append,
      List.append_cons done c word, ← ih hmore hafter]
    split at hrest
    · next hquote =>
      rw [if_pos hquote, hquote]
      exact quotedWord?_two_quotes hrest
    · next hquote =>
      obtain ⟨hblank, hbreak⟩ := hword c List.mem_cons_self
      rw [if_neg hquote]
      exact quotedWord?_char hrest hblank hbreak hquote (nomatch ·)

/-- What may stand between single quotes: texts with neither line feeds nor spaces at their line
breaks. -/
structure Lined (text : Text) : Prop where
  /-- The characters are written as themselves. -/
  printable : ∀ c ∈ text, isPrintable c = true
  /-- Only the Unicode separators break lines. -/
  feedless : '\n' ∉ text
  /-- No line ends with a space. -/
  ends : text.IsChain fun a b => isSpace a = true → isBreak b = false
  /-- No line but the first starts with a space. -/
  starts : text.IsChain fun a b => isBreak a = true → isSpace b = false

/-- The end of such a text is one again. -/
theorem Lined.of_append {s t : Text} (h : Lined (s ++ t)) : Lined t where
  printable c hc := h.printable c (List.mem_append_right s hc)
  feedless hmem := h.feedless (List.mem_append_right s hmem)
  ends := h.ends.right_of_append
  starts := h.starts.right_of_append

/-- A gap ends before a text that does, also between single quotes. -/
theorem halts_quotedLines {indent : Nat} {text rest : Text} (h : Halts text) :
    Halts (quotedLines indent text ++ '\'' :: rest) := by
  intro c hc
  rw [List.head?_append, head?_quotedLines] at hc
  cases text with
  | nil =>
    cases hc
    decide
  | cons d text =>
    cases hc
    exact h c rfl

/-- A gap at the start of a text: the text after it, and what is written of it. -/
structure GapOf (indent : Nat) (text : Text) (gap : Gap) (written after : Text) : Prop where
  /-- The text is the gap and what comes after it. -/
  text_eq : text = gap.value ++ after
  /-- The gap is not empty. -/
  value_ne : gap.value ≠ []
  /-- The lines of the text go on after what is written of the gap. -/
  lines_eq : quotedLines indent text = written ++ quotedLines indent after
  /-- The gap is read from there. -/
  read : ∀ (place : Cursor) (rest : Text),
    place.rest = quotedLines indent text ++ '\'' :: rest →
      Gap.read? (fun _ => false) place.rest.length {} place = some (gap, place.advance written)
  /-- The gap does not end at the start of a line. -/
  col_pos : ∀ place : Cursor, 0 < (place.advance written).col

variable {indent : Nat}

/-- Spaces make a gap. -/
theorem Lined.gapOf_spaces {n : Nat} {rest : Text} (h : Lined (spaces (n + 1) ++ rest))
    (hrest : rest.head? ≠ some ' ') :
    GapOf indent (spaces (n + 1) ++ rest) ⟨spaces (n + 1), [], [], false⟩ (spaces (n + 1))
      rest := by
  have hunbroken : ∀ c ∈ spaces (n + 1), isBreak c = false := fun c hc => isBreak_of_mem_spaces hc
  have hlines : quotedLines indent (spaces (n + 1) ++ rest) =
      spaces (n + 1) ++ quotedLines indent rest := by
    rw [quotedLines_append_of_unbroken hunbroken, doubled_of_ne]
    intro c hc
    rw [of_mem_spaces hc]
    decide
  have hhalts : Halts rest := by
    intro c hc
    have hlast : (spaces (n + 1)).getLast? = some ' ' := by simp [spaces, List.getLast?_replicate]
    have hprintable : isPrintable c = true := h.of_append.printable c (List.mem_of_mem_head? hc)
    refine ⟨Bool.eq_false_iff.mpr fun hblank => hrest ?_,
      (List.isChain_append.mp h.ends).2.2 ' ' hlast c hc (by decide)⟩
    rw [← (isBlank_iff_of_isPrintable hprintable).mp hblank]
    exact hc
  refine ⟨rfl, List.cons_ne_nil _ _, hlines, fun place more hplace => ?_, fun place => ?_⟩
  · rw [hlines, List.append_assoc] at hplace
    refine Gap.read?_spaces rfl hplace (halts_quotedLines hhalts) ?_
    rw [hplace, List.length_append, length_spaces]
    omega
  · rw [Cursor.col_advance hunbroken, length_spaces]
    omega

/-- Line breaks make a gap, and the indentation after them does not count. -/
theorem Lined.gapOf_breaks {b : Char} {breaks rest : Text} (h : Lined (b :: breaks ++ rest))
    (hindent : 0 < indent) (hbreaks : ∀ c ∈ b :: breaks, isBreak c = true)
    (hrest : ∀ c ∈ rest.head?, isBreak c = false) :
    GapOf indent (b :: breaks ++ rest) ⟨[], [b], breaks, true⟩
      (b :: breaks ++ spaces indent) rest := by
  have hlines : quotedLines indent (b :: breaks ++ rest) =
      b :: breaks ++ spaces indent ++ quotedLines indent rest := by
    rw [quotedLines_append_of_breaks hbreaks hrest, List.append_assoc]
  have hvalue : Gap.value ⟨[], [b], breaks, true⟩ = b :: breaks := by
    have hb : b ≠ '\n' := by
      rintro rfl
      exact h.feedless List.mem_cons_self
    simp [Gap.value, hb]
  have hprintable : ∀ c ∈ b :: breaks, isBreak c = true ∧ isPrintable c = true := fun c hc =>
    ⟨hbreaks c hc, h.printable c (List.mem_append_left rest hc)⟩
  have hhalts : Halts rest := by
    intro c hc
    have hprintable : isPrintable c = true := h.of_append.printable c (List.mem_of_mem_head? hc)
    refine ⟨Bool.eq_false_iff.mpr fun hblank => ?_, hrest c hc⟩
    obtain ⟨last, hlast⟩ : ∃ last, (b :: breaks).getLast? = some last :=
      ⟨_, List.getLast?_eq_some_getLast (List.cons_ne_nil b breaks)⟩
    have hspace := (List.isChain_append.mp h.starts).2.2 last hlast c hc
      (hbreaks last (List.mem_of_getLast? hlast))
    rw [(isBlank_iff_of_isPrintable hprintable).mp hblank] at hspace
    exact absurd hspace (by decide)
  refine ⟨by rw [hvalue], by rw [hvalue]; exact List.cons_ne_nil _ _, hlines,
    fun place more hplace => ?_, fun place => ?_⟩
  · rw [hlines, List.append_assoc, List.append_assoc] at hplace
    refine Gap.read?_lines (fun _ _ => rfl) hprintable hplace (halts_quotedLines hhalts) ?_
    rw [hplace, List.length_append, List.length_append, length_spaces]
    omega
  · rw [Cursor.col_advance_lines hbreaks fun c hc => isBreak_of_mem_spaces hc, length_spaces]
    exact hindent

/-- A text that does not begin with a word begins with a gap. -/
theorem Lined.exists_gapOf {text : Text} (h : Lined text) (hindent : 0 < indent) (hne : text ≠ [])
    (hhead : ∀ c ∈ text.head?, (isBlank c || isBreak c) = true) :
    ∃ gap written after, GapOf indent text gap written after := by
  obtain ⟨c, more, rfl⟩ := List.exists_cons_of_ne_nil hne
  cases hbreak : isBreak c with
  | false =>
    have hblank : isBlank c = true := by simpa [hbreak] using hhead c rfl
    have hprintable : isPrintable c = true := h.printable c List.mem_cons_self
    have hspace : (c :: more).head? = some ' ' :=
      congrArg some ((isBlank_iff_of_isPrintable hprintable).mp hblank)
    obtain ⟨n, after, hsplit, hafter⟩ := exists_eq_spaces_append hspace
    rw [hsplit] at h ⊢
    exact ⟨_, _, _, h.gapOf_spaces hafter⟩
  | true =>
    obtain ⟨breaks, after, hsplit, hbreaks, hafter⟩ := exists_append_of_test isBreak more
    rw [hsplit, ← List.cons_append] at h ⊢
    refine ⟨_, _, _, h.gapOf_breaks hindent (fun d hd => ?_) hafter⟩
    rcases List.mem_cons.mp hd with rfl | hd
    · exact hbreak
    · exact hbreaks d hd

/-- A text is read from between single quotes. -/
theorem quotedFrom?_quotedLines {text : Text} {cursor : Cursor} {fuel : Nat}
    {done rest : Text} (htext : Lined text) (hindent : 0 < indent) (hcol : 0 < cursor.col)
    (hquote : rest.head? ≠ some '\'')
    (hrest : cursor.rest = quotedLines indent text ++ '\'' :: rest)
    (hfuel : text.length < fuel) :
    quotedFrom? true fuel done cursor =
      some (done ++ text, cursor.advance (quotedLines indent text ++ ['\''])) := by
  -- A word is read up to a gap or the quote, and after the gap the text is shorter.
  induction hn : text.length using Nat.strongRecOn generalizing text cursor fuel done with
  | ind n ih =>
    obtain ⟨fuel, rfl⟩ : ∃ k, fuel = k + 1 := ⟨fuel - 1, by omega⟩
    obtain ⟨word, more, rfl, hword, hmore⟩ :=
      exists_append_of_test (fun c => !isBlank c && !isBreak c) text
    have hword : ∀ c ∈ word, isBlank c = false ∧ isBreak c = false :=
      fun c hc => by simpa using hword c hc
    have hlines : quotedLines indent (word ++ more) = doubled word ++ quotedLines indent more :=
      quotedLines_append_of_unbroken fun c hc => (hword c hc).2
    rw [hlines, List.append_assoc] at hrest
    have hne : cursor.rest ≠ [] := by simp [hrest]
    have hstop := Cursor.rest_advance_of_eq hrest
    have hlength : word.length ≤ cursor.rest.length := by
      rw [hrest, List.length_append]
      exact Nat.le_add_right_of_le (length_le_doubled word)
    have hread := quotedWord?_of_end done
      (fun _ => quotedWord?_doubled hword hrest) hlength
    rw [hlines]
    generalize hplace : cursor.advance (doubled word) = place at hstop hread
    by_cases hnil : more = []
    · rw [hnil, quotedLines_nil] at hstop ⊢
      rw [quotedFrom?_of_close hcol hne
        (hread fun _ => quotedWord?_of_close hstop fun _ => hquote)
        (by rw [Cursor.sees, Cursor.next?, hstop]; rfl), ← hplace]
      simp [Cursor.advance_append, Cursor.advance_singleton (show isBreak '\'' = false by decide)]
    · have hlined : Lined more := htext.of_append
      have hgapHead : ∀ c ∈ more.head?, (isBlank c || isBreak c) = true := fun c hc => by
        have htest := hmore c hc
        cases hblank : isBlank c <;> simp_all
      obtain ⟨gap, written, after, hgap⟩ := hlined.exists_gapOf hindent hnil hgapHead
      obtain ⟨c, others, rfl⟩ := List.exists_cons_of_ne_nil hnil
      have hhead : place.rest.head? = some c := by
        rw [hstop, List.head?_append, head?_quotedLines]
        rfl
      obtain ⟨others', hchar⟩ := List.head?_eq_some_iff.mp hhead
      have hsees : place.sees '\'' = false := by
        have hne : c ≠ '\'' := by
          rintro rfl
          exact absurd (hgapHead _ rfl) (by decide)
        simpa [Cursor.sees, Cursor.next?, hhead] using hne
      have hlength := List.length_pos_iff.mpr hgap.value_ne
      have htextLength := congrArg List.length hgap.text_eq
      rw [List.length_append] at hn hfuel htextLength
      have hafter : Lined after := (hgap.text_eq ▸ hlined).of_append
      have hnext : (place.advance written).rest = quotedLines indent after ++ '\'' :: rest := by
        refine Cursor.rest_advance_of_eq ?_
        rw [hstop, hgap.lines_eq, List.append_assoc]
      rw [quotedFrom?_of_gap hcol hne (hread fun _ => quotedWord?_of_gap hchar (hgapHead c rfl))
        hsees (hgap.read place rest hstop),
        ih after.length (by omega) hafter (hgap.col_pos place) hnext (by omega) rfl,
        hgap.lines_eq, ← hplace, List.append_assoc, List.append_assoc, ← hgap.text_eq]
      simp [Cursor.advance_append]

/-- A text in single quotes is read back. -/
theorem quoted?_singleQuoted {text rest : Text} {cursor : Cursor} (htext : Lined text)
    (hindent : 0 < indent) (hquote : rest.head? ≠ some '\'')
    (hrest : cursor.rest = singleQuoted indent text ++ rest) :
    quoted? true cursor = some (text, cursor.advance (singleQuoted indent text)) := by
  have hstart : cursor.skip = cursor.advance ['\''] :=
    (Cursor.advance_singleton (by decide)).symm
  have hcol : 0 < (cursor.advance ['\'']).col := Nat.succ_pos _
  have hinside : (cursor.advance ['\'']).rest = quotedLines indent text ++ '\'' :: rest := by
    refine Cursor.rest_advance_of_eq ?_
    rw [hrest, singleQuoted_eq]
    simp
  have hfuel : text.length < cursor.rest.length + 1 := by
    have hlength := length_le_quotedLines indent text
    simp only [hrest, singleQuoted_eq, List.length_append, List.length_cons]
    omega
  rw [quoted?, hstart, quotedFrom?_quotedLines htext hindent hcol hquote hinside hfuel,
    singleQuoted_eq]
  rfl

end Scalar
end LinkedNotes.Yaml
