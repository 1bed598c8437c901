import LinkedNotes.Proofs.Yaml.Cursor
import LinkedNotes.Proofs.Yaml.Lines

/-!
# Texts without quotes

A text that can be plain is read back up to the end of its line, when the next line is indented less
than the text may go on, and so is a word up to a colon.
-/

namespace LinkedNotes.Yaml.Scalar

open Tree

/-- What goes on as a plain text up to the end of a line. -/
structure Bare (text : Text) : Prop where
  /-- Nothing needs an escape. -/
  printable : ∀ c ∈ text, isPrintable c = true
  /-- It stands in one line. -/
  unbroken : ∀ c ∈ text, isBreak c = false
  /-- No colon stands before a space or at the end. -/
  colons : (text ++ ['\n']).IsChain fun a b => (a == ':') = true → isGap b = false
  /-- No number sign stands behind a space. -/
  comments : text.IsChain fun a b => isGap a = true → (b == '#') = false
  /-- No space stands at the end. -/
  last_ne : text.getLast? ≠ some ' '

/-- The end of such a text is one again. -/
theorem Bare.of_append {s t : Text} (h : Bare (s ++ t)) (hne : t ≠ []) : Bare t where
  printable c hc := h.printable c (List.mem_append_right s hc)
  unbroken c hc := h.unbroken c (List.mem_append_right s hc)
  colons := by
    have hcolons := h.colons
    rw [List.append_assoc] at hcolons
    exact hcolons.right_of_append
  comments := h.comments.right_of_append
  last_ne := by
    rw [← List.getLast?_append_of_ne_nil s hne]
    exact h.last_ne

/-- A word is read up to where a plain text stops. -/
theorem plainWord?_append {word rest : Text}
    (hword : ∀ c ∈ word, isBlank c = false ∧ isBreak c = false)
    (hcolons : (word ++ rest.take 1).IsChain fun a b => (a == ':') = true → isGap b = false)
    (hne : rest ≠ []) (hstop : plainWord? false rest = some ([], rest)) :
    plainWord? false (word ++ rest) = some (word, rest) := by
  induction word with
  | nil => exact hstop
  | cons c word ih =>
    obtain ⟨hblank, hbreak⟩ := hword c List.mem_cons_self
    have hmore := ih (fun d hd => hword d (List.mem_cons_of_mem _ hd)) hcolons.tail
    have hcolon :
        (c == ':' && (word ++ rest).head?.all fun d => isBlank d || isBreak d) = false := by
      cases hcolon : c == ':' with
      | false => rfl
      | true =>
        obtain ⟨d, hd⟩ : ∃ d, (word ++ rest).head? = some d :=
          Option.isSome_iff_exists.mp (List.isSome_head?.mpr (by simp [hne]))
        have hnext : (word ++ rest.take 1).head? = some d := by
          rw [← hd, List.head?_append, List.head?_append, List.head?_take]
          rfl
        have hgap := (List.isChain_cons.mp hcolons).1 d hnext hcolon
        rw [hd]
        exact hgap
    rw [List.cons_append, plainWord?, hblank, hbreak, hcolon, hmore]
    rfl

/-- A plain text stops before a gap. -/
theorem plainWord?_of_gap {c : Char} {rest : Text} (hc : isGap c = true) :
    plainWord? false (c :: rest) = some ([], c :: rest) := by
  have hgap : (isBlank c || isBreak c) = true := hc
  rw [plainWord?, hgap]
  rfl

/-- A plain text stops before a colon with a gap behind it. -/
theorem plainWord?_of_colon {rest : Text} (hrest : rest.head?.all isGap = true) :
    plainWord? false (':' :: rest) = some ([], ':' :: rest) := by
  have hnext : (rest.head?.all fun d => isBlank d || isBreak d) = true := hrest
  rw [plainWord?, hnext]
  rfl

section

variable {cursor : Cursor} {indent fuel : Nat} {gap : Gap} {done word rest : Text}
  (hmark : (cursor.atDocumentMark || cursor.sees '#') = false)
  (hword : plainWord? false cursor.rest = some (word, rest)) (hne : word ≠ [])
include hmark hword hne

/-- A plain text ends behind a word with no gap after it. -/
theorem plainFrom?_of_word (hend : Halts (cursor.skipMany word.length).rest) :
    plainFrom? false indent (fuel + 1) done gap cursor =
      some (done ++ gap.value ++ word, false, cursor.skipMany word.length) := by
  have hall : ((cursor.skipMany word.length).next?.all fun c => !isBlank c && !isBreak c) =
      true := by
    cases hnext : (cursor.skipMany word.length).next? with
    | none => rfl
    | some c => simp [hend c hnext]
  rw [plainFrom?, hmark]
  simp [hword, hne, hall]

/-- A plain text ends behind a gap that leads to a lesser indentation, and else goes on there. -/
theorem plainFrom?_of_gap {c : Char} (hnext : (cursor.skipMany word.length).next? = some c)
    (hc : (isBlank c || isBreak c) = true) {between : Gap} {place : Cursor}
    (hgap : Gap.read? (fun place => place.col < indent && place.sees '\t')
      (cursor.skipMany word.length).rest.length {} (cursor.skipMany word.length) =
        some (between, place)) :
    plainFrom? false indent (fuel + 1) done gap cursor =
      if place.col < indent then some (done ++ gap.value ++ word, between.broken, place)
      else plainFrom? false indent fuel (done ++ gap.value ++ word) between place := by
  have hall : ((cursor.skipMany word.length).next?.all fun c => !isBlank c && !isBreak c) =
      false := by
    rw [hnext]
    cases hblank : isBlank c <;> simp_all
  rw [plainFrom?, hmark, hword]
  simp only [Bool.false_eq_true, if_false, Option.bind_eq_bind, Option.bind_some, if_neg hne, hall,
    hgap]
  simp

end

/-- The first word of such a text is read, and then comes a gap. -/
theorem Bare.plainWord?_eq {word more rest : Text} (h : Bare (word ++ more))
    (hword : ∀ c ∈ word, isBlank c = false) (hmore : ∀ c ∈ more.head?, isBlank c = true) :
    plainWord? false (word ++ (more ++ '\n' :: rest)) = some (word, more ++ '\n' :: rest) := by
  refine plainWord?_append
    (fun c hc => ⟨hword c hc, h.unbroken c (List.mem_append_left more hc)⟩) ?_ (by simp) ?_
  · have htake : (more ++ '\n' :: rest).take 1 = (more ++ ['\n']).take 1 := by
      cases more <;> rfl
    obtain ⟨others, hothers⟩ := List.take_prefix 1 (more ++ ['\n'])
    have hcolons := h.colons
    rw [List.append_assoc, ← hothers, ← List.append_assoc] at hcolons
    rw [htake]
    exact hcolons.left_of_append
  · cases more with
    | nil => exact plainWord?_of_gap (by decide)
    | cons c more =>
      have hblank : isBlank c = true := hmore c rfl
      exact plainWord?_of_gap (by rw [isGap, hblank, Bool.true_or])

/-- What comes after the spaces of such a text. -/
theorem Bare.after_spaces {n : Nat} {rest : Text} (h : Bare (spaces (n + 1) ++ rest))
    (hrest : rest.head? ≠ some ' ') :
    rest ≠ [] ∧ Halts rest ∧ rest.head? ≠ some '#' := by
  have hlast : (spaces (n + 1)).getLast? = some ' ' := by simp [spaces, List.getLast?_replicate]
  refine ⟨?_, fun c hc => ?_, fun hsign => ?_⟩
  · rintro rfl
    rw [List.append_nil] at h
    exact h.last_ne hlast
  · have hmem : c ∈ spaces (n + 1) ++ rest := List.mem_append_right _ (List.mem_of_mem_head? hc)
    refine ⟨Bool.eq_false_iff.mpr fun hblank => hrest ?_, h.unbroken c hmem⟩
    rw [← (isBlank_iff_of_isPrintable (h.printable c hmem)).mp hblank]
    exact hc
  · have hcomment := (List.isChain_append.mp h.comments).2.2 ' ' hlast '#' hsign (by decide)
    exact absurd hcomment (by decide)

/-- A text as words with spaces between them. -/
inductive Words : Text → Prop where
  /-- The last word. -/
  | last {word : Text} (hne : word ≠ []) (hword : ∀ c ∈ word, isBlank c = false) : Words word
  /-- A word with spaces before other words. -/
  | before {word after : Text} (n : Nat) (hne : word ≠ []) (hword : ∀ c ∈ word, isBlank c = false)
      (hafter : Words after) : Words (word ++ (spaces (n + 1) ++ after))

/-- Such a text is made up of words, if it does not begin with a space. -/
theorem Bare.words {text : Text} (h : Bare text) (hne : text ≠ [])
    (hblank : text.head? ≠ some ' ') : Words text := by
  induction hn : text.length using Nat.strongRecOn generalizing text with
  | ind n ih =>
    obtain ⟨word, more, rfl, hword, hmore⟩ := exists_append_of_test (!isBlank ·) text
    have hword : ∀ c ∈ word, isBlank c = false := fun c hc => by simpa using hword c hc
    have hspace (c : Char) (hc : c ∈ more.head?) : c = ' ' := by
      have hmem : c ∈ word ++ more := List.mem_append_right word (List.mem_of_mem_head? hc)
      exact (isBlank_iff_of_isPrintable (h.printable c hmem)).mp (by simpa using hmore c hc)
    have hwordNe : word ≠ [] := by
      rintro rfl
      obtain ⟨c, hc⟩ := Option.isSome_iff_exists.mp (List.isSome_head?.mpr hne)
      exact hblank (hspace c hc ▸ hc)
    cases more with
    | nil =>
      rw [List.append_nil]
      exact .last hwordNe hword
    | cons c more =>
      have hhead : (c :: more).head? = some ' ' := congrArg some (hspace c rfl)
      obtain ⟨k, after, hsplit, hafter⟩ := exists_eq_spaces_append hhead
      rw [hsplit] at h hn ⊢
      have hmore := h.of_append (by simp [spaces_succ])
      have hafterNe := (hmore.after_spaces hafter).1
      rw [List.length_append, List.length_append, length_spaces] at hn
      exact .before k hwordNe hword
        (ih after.length (by omega) (hmore.of_append hafterNe) hafterNe hafter rfl)

/-- Words do not begin with a space. -/
theorem Words.head? {text : Text} (h : Words text) : text ≠ [] ∧ text.head? ≠ some ' ' := by
  have hstart {word more : Text} (hne : word ≠ []) (hword : ∀ c ∈ word, isBlank c = false) :
      word ++ more ≠ [] ∧ (word ++ more).head? ≠ some ' ' := by
    refine ⟨List.append_ne_nil_of_left_ne_nil hne more, fun hhead => ?_⟩
    rw [List.head?_append_of_ne_nil _ hne] at hhead
    exact absurd (hword ' ' (List.mem_of_mem_head? hhead)) (by decide)
  cases h with
  | last hne hword =>
    rw [← List.append_nil text]
    exact hstart hne hword
  | before n hne hword hafter => exact hstart hne hword

/-- A word of such a text is read with the gap behind it. -/
theorem Bare.plainFrom?_word {word more rest : Text} {cursor place : Cursor} {indent fuel : Nat}
    {gap between : Gap} {done : Text} (h : Bare (word ++ more)) (hne : word ≠ [])
    (hword : ∀ c ∈ word, isBlank c = false) (hmore : ∀ c ∈ more.head?, isBlank c = true)
    (hsign : word.head? ≠ some '#') (hcol : 0 < cursor.col)
    (hrest : cursor.rest = word ++ (more ++ '\n' :: rest))
    (hgap : Gap.read? (fun place => place.col < indent && place.sees '\t')
      (more ++ '\n' :: rest).length {} (cursor.advance word) = some (between, place)) :
    plainFrom? false indent (fuel + 1) done gap cursor =
      if place.col < indent then some (done ++ gap.value ++ word, between.broken, place)
      else plainFrom? false indent fuel (done ++ gap.value ++ word) between place := by
  have hmark : (cursor.atDocumentMark || cursor.sees '#') = false := by
    have hhead : cursor.rest.head? = word.head? := by
      rw [hrest, List.head?_append_of_ne_nil _ hne]
    rw [Cursor.atDocumentMark_of_pos hcol, Bool.false_or, Cursor.sees, Cursor.next?, hhead]
    exact beq_eq_false_iff_ne.mpr hsign
  have hread : plainWord? false cursor.rest = some (word, more ++ '\n' :: rest) := by
    rw [hrest, h.plainWord?_eq hword hmore]
  have hskip : cursor.skipMany word.length = cursor.advance word :=
    (Cursor.advance_eq_skipMany fun c hc => h.unbroken c (List.mem_append_left more hc)).symm
  have hstop := Cursor.rest_advance_of_eq hrest
  obtain ⟨c, hnext, hc⟩ : ∃ c, (more ++ '\n' :: rest).head? = some c ∧
      (isBlank c || isBreak c) = true := by
    cases more with
    | nil => exact ⟨'\n', rfl, rfl⟩
    | cons c more =>
      have hblank : isBlank c = true := hmore c rfl
      exact ⟨c, rfl, by rw [hblank, Bool.true_or]⟩
  rw [← hstop, ← hskip] at hgap
  exact plainFrom?_of_gap hmark hread hne (by rw [hskip, Cursor.next?, hstop, hnext]) hc hgap

/-- A plain text is read up to the end of its line. -/
theorem plainFrom?_of_bare {text : Text} {cursor : Cursor} {indent fuel k : Nat} {gap : Gap}
    {done rest : Text} (hwords : Words text) (htext : Bare text) (hsign : text.head? ≠ some '#')
    (hrest : cursor.rest = text ++ '\n' :: (spaces k ++ rest)) (hhalts : Halts rest)
    (hindent : k < indent) (hcol : indent ≤ cursor.col) (hfuel : text.length < fuel) :
    plainFrom? false indent fuel done gap cursor =
      some (done ++ gap.value ++ text, true, cursor.advance (text ++ '\n' :: spaces k)) := by
  induction hwords generalizing cursor fuel done gap with
  | @last word hne hword =>
    obtain ⟨fuel, rfl⟩ : ∃ m, fuel = m + 1 := ⟨fuel - 1, by omega⟩
    have hstop := Cursor.rest_advance_of_eq hrest
    have hrefuses (place : Cursor) (hspace : place.sees ' ' = true) :
        (decide (place.col < indent) && place.sees '\t') = false := by
      have hnext : place.next? = some ' ' := by simpa [Cursor.sees] using hspace
      simp [Cursor.sees, hnext]
    have hgap : Gap.read? (fun place => decide (place.col < indent) && place.sees '\t')
        ([] ++ '\n' :: (spaces k ++ rest)).length {} (cursor.advance word) =
          some (⟨[], ['\n'], [], true⟩, (cursor.advance word).advance ('\n' :: spaces k)) := by
      refine Gap.read?_lines hrefuses (fun d hd => of_mem_feed hd) hstop hhalts ?_
      simp only [List.nil_append, List.length_cons, List.length_append, List.length_nil,
        length_spaces]
      omega
    have hend : ((cursor.advance word).advance ('\n' :: spaces k)).col < indent := by
      show ((cursor.advance word).advance (['\n'] ++ spaces k)).col < indent
      rwa [Cursor.col_advance_spaces rfl]
    have hbare : Bare (word ++ []) := by rwa [List.append_nil]
    rw [hbare.plainFrom?_word hne hword (by simp) hsign (by omega) hrest hgap, if_pos hend,
      Cursor.advance_append]
  | @before word after n hne hword hafter ih =>
    obtain ⟨fuel, rfl⟩ : ∃ m, fuel = m + 1 := ⟨fuel - 1, by omega⟩
    obtain ⟨hafterNe, hafterSpace⟩ := hafter.head?
    have hmore := htext.of_append (by simp [spaces_succ])
    have hafterBare := hmore.of_append hafterNe
    obtain ⟨-, hafterHalts, hafterSign⟩ := hmore.after_spaces hafterSpace
    rw [List.append_assoc] at hrest
    have hstop := Cursor.rest_advance_of_eq hrest
    have hspaces : ∀ c ∈ (spaces (n + 1) ++ after).head?, isBlank c = true := by
      rintro c hc
      obtain rfl := Option.some.inj hc
      rfl
    have hhaltsAfter : Halts (after ++ '\n' :: (spaces k ++ rest)) := by
      intro d hd
      rw [List.head?_append_of_ne_nil _ hafterNe] at hd
      exact hafterHalts d hd
    have hgap : Gap.read? (fun place => decide (place.col < indent) && place.sees '\t')
        (spaces (n + 1) ++ after ++ '\n' :: (spaces k ++ rest)).length {} (cursor.advance word) =
          some (⟨spaces (n + 1), [], [], false⟩,
            (cursor.advance word).advance (spaces (n + 1))) := by
      rw [List.append_assoc] at hstop ⊢
      refine Gap.read?_spaces rfl hstop hhaltsAfter ?_
      rw [List.length_append, length_spaces]
      omega
    have hafterCol : ((cursor.advance word).advance (spaces (n + 1))).col =
        cursor.col + word.length + (n + 1) := by
      rw [Cursor.col_advance fun d hd => isBreak_of_mem_spaces hd, length_spaces,
        Cursor.col_advance fun c hc => htext.unbroken c (List.mem_append_left _ hc)]
    have hafterRest : ((cursor.advance word).advance (spaces (n + 1))).rest =
        after ++ '\n' :: (spaces k ++ rest) :=
      Cursor.rest_advance_of_eq (by rw [hstop, List.append_assoc])
    rw [List.head?_append_of_ne_nil _ hne] at hsign
    rw [List.length_append, List.length_append, length_spaces] at hfuel
    rw [htext.plainFrom?_word hne hword hspaces hsign (by omega) hrest hgap, if_neg (by omega),
      ih hafterBare hafterSign hafterRest (by omega) (by omega)]
    simp [Gap.value, Cursor.advance_append]

/-- A text that can be plain is read back, when the next line is indented less than the text may go
on. -/
theorem plain?_of_bare {text rest : Text} {cursor : Cursor} {indent k : Nat} (htext : Bare text)
    (hne : text ≠ []) (hblank : text.head? ≠ some ' ') (hsign : text.head? ≠ some '#')
    (hrest : cursor.rest = text ++ '\n' :: (spaces k ++ rest)) (hhalts : Halts rest)
    (hindent : k < indent) (hcol : indent ≤ cursor.col) :
    plain? false indent cursor =
      some (text, true, cursor.advance (text ++ '\n' :: spaces k)) := by
  have hfuel : text.length < cursor.rest.length + 1 := by
    rw [hrest, List.length_append]
    omega
  rw [plain?, plainFrom?_of_bare (htext.words hne hblank) htext hsign hrest hhalts hindent hcol
    hfuel]
  rfl

/-- What can be written without quotes goes on up to the end of its line. -/
theorem bare_of_canBePlain {text : Text} (h : canBePlain text = true) : Bare text := by
  simp only [canBePlain, hasMarks, Bool.and_eq_true, Bool.not_eq_true', Bool.or_eq_false_iff] at h
  obtain ⟨⟨⟨⟨hescapes, hbreaks⟩, ⟨⟨⟨⟨⟨-, -⟩, hcolons⟩, hlast⟩, hcomments⟩, -⟩, -⟩, -⟩, hspace⟩ := h
  obtain ⟨hprintable, -⟩ := needsEscapes_eq_false_iff.mp hescapes
  refine ⟨hprintable, by simpa using hbreaks, ?_, hasPair_eq_false_iff.mp hcomments, ?_⟩
  · refine (hasPair_eq_false_iff.mp hcolons).append (List.isChain_singleton _) ?_
    intro a ha b hb hcolon
    rw [Option.mem_def.mp ha, beq_iff_eq.mp hcolon] at hlast
    exact absurd hlast (by decide)
  · intro heq
    rw [heq] at hspace
    exact absurd hspace (by decide)

/-- What can be written without quotes starts with none of the characters that mean something. -/
theorem of_canBePlain {c : Char} {text : Text} (h : canBePlain (c :: text) = true) :
    c ∉ openers ∧ c ≠ ' ' ∧ (c ∈ "?:-".toList → text.head?.all isGap = false) := by
  simp only [canBePlain, hasMarks, Bool.and_eq_true, Bool.not_eq_true', Bool.or_eq_false_iff] at h
  obtain ⟨⟨⟨⟨-, -⟩, ⟨⟨⟨⟨⟨hopener, hmark⟩, -⟩, -⟩, -⟩, -⟩, -⟩, hspace⟩, -⟩ := h
  refine ⟨by simpa using hopener, ?_, fun hc => ?_⟩
  · rintro rfl
    cases hspace
  · have hfirst : ((c :: text).head?.any fun c => decide (c ∈ "?:-".toList)) = true := by
      simpa using hc
    rw [hfirst, Bool.true_and] at hmark
    exact hmark

/-! ## Keys -/

/-- A letter or a digit is no other mark. -/
theorem of_isAlphanum {c : Char} (h : c.isAlphanum = true) :
    isBlank c = false ∧ isBreak c = false ∧ c ≠ ':' ∧ c ≠ '#' ∧ c ≠ '-' ∧ c ≠ '.' := by
  have hne (d : Char) (hd : d.isAlphanum = false) : c ≠ d := by
    rintro rfl
    rw [hd] at h
    cases h
  simp [isBlank, isBreak, hne ' ' rfl, hne '\t' rfl, hne '\n' rfl, hne '\r' rfl,
    hne '\u0085' rfl, hne '\u2028' rfl, hne '\u2029' rfl, hne ':' rfl, hne '#' rfl, hne '-' rfl,
    hne '.' rfl]

/-- A letter or a digit is written as itself. -/
theorem isPrintable_of_isAlphanum {c : Char} (h : c.isAlphanum = true) : isPrintable c = true := by
  have h : (decide ('A'.val ≤ c.val ∧ c.val ≤ 'Z'.val) || ('a'.val ≤ c.val && c.val ≤ 'z'.val) ||
      ('0'.val ≤ c.val && c.val ≤ '9'.val)) = true := h
  simp only [Bool.or_eq_true, Bool.and_eq_true, decide_eq_true_eq, UInt32.le_iff_toNat_le] at h
  have hcode : 0x20 ≤ c.toNat ∧ c.toNat ≤ 0x7E := by
    simp only [Char.toNat_val, Char.reduceToNat] at h
    omega
  simp [isPrintable, hcode]

/-- A letter or a digit starts nothing else than a plain text. -/
theorem not_mem_of_isAlphanum {c : Char} (h : c.isAlphanum = true) :
    c ∉ openers ∧ c ∉ "?:-".toList := by
  have hall : (openers ++ "?:-".toList).all (!·.isAlphanum) = true := by decide
  rw [← not_or, ← List.mem_append]
  intro hmem
  have hother := List.all_eq_true.mp hall c hmem
  rw [h] at hother
  cases hother

/-- Without a colon none stands before a gap. -/
theorem isChain_of_colonless {word : Text} {last : Char} (h : ∀ c ∈ word, c ≠ ':') :
    (word ++ [last]).IsChain fun a b => (a == ':') = true → isGap b = false := by
  induction word with
  | nil => exact List.isChain_singleton last
  | cons c word ih =>
    refine List.isChain_cons.mpr ⟨fun d _ hc => ?_, ih fun d hd => h d (List.mem_cons_of_mem _ hd)⟩
    exact absurd (beq_iff_eq.mp hc) (h c List.mem_cons_self)

/-- A word is read up to a colon with a gap behind it. -/
theorem plain?_of_word {key rest : Text} {cursor : Cursor} {indent : Nat}
    (hkey : ∀ c ∈ key, c.isAlphanum = true) (hne : key ≠ []) (hgap : rest.head?.all isGap = true)
    (hrest : cursor.rest = key ++ ':' :: rest) :
    plain? false indent cursor = some (key, false, cursor.advance key) := by
  have hunbroken : ∀ c ∈ key, isBreak c = false := fun c hc => (of_isAlphanum (hkey c hc)).2.1
  have hskip : cursor.skipMany key.length = cursor.advance key :=
    (Cursor.advance_eq_skipMany hunbroken).symm
  have hmark : (cursor.atDocumentMark || cursor.sees '#') = false := by
    obtain ⟨c, more, rfl⟩ := List.exists_cons_of_ne_nil hne
    obtain ⟨-, -, -, hsign, hhyphen, hdot⟩ := of_isAlphanum (hkey c List.mem_cons_self)
    simp [Cursor.atDocumentMark, Cursor.atMark, Cursor.sees, Cursor.next?, hrest, hsign,
      hhyphen.symm, hdot.symm]
  have hword : plainWord? false cursor.rest = some (key, ':' :: rest) := by
    rw [hrest]
    refine plainWord?_append (fun c hc => ?_) ?_ (List.cons_ne_nil _ _)
      (plainWord?_of_colon hgap)
    · obtain ⟨hblank, hbreak, -⟩ := of_isAlphanum (hkey c hc)
      exact ⟨hblank, hbreak⟩
    · exact isChain_of_colonless fun c hc => (of_isAlphanum (hkey c hc)).2.2.1
  have hhalts : Halts (cursor.skipMany key.length).rest := by
    rw [hskip, Cursor.rest_advance_of_eq hrest]
    intro c hc
    cases hc
    decide
  rw [plain?, plainFrom?_of_word hmark hword hne hhalts, hskip]
  rfl

end LinkedNotes.Yaml.Scalar
