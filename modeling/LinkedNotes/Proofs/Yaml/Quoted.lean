import LinkedNotes.Proofs.Yaml.Cursor
import LinkedNotes.Proofs.Yaml.Lines

/-!
# Texts in double quotes

A text that was written in double quotes is read back: what cannot stand for itself is an escape,
which is read as the character that it stands for.
-/

namespace LinkedNotes.Yaml

open Tree

/-! ## Hexadecimal digits -/

namespace Scalar

/-- The number that hexadecimal digits make up. -/
def hexNumber? (digits : Text) : Option Nat :=
  (digits.mapM hexDigit?).map (List.foldl (fun n digit => 16 * n + digit) 0)

/-- A zero in front does not count. -/
theorem hexNumber?_zero_cons (digits : Text) : hexNumber? ('0' :: digits) = hexNumber? digits := by
  have hzero : hexDigit? '0' = some 0 := by decide
  rw [hexNumber?, hexNumber?, List.mapM_cons, hzero]
  cases digits.mapM hexDigit? <;> rfl

/-- Zeros in front do not count. -/
theorem hexNumber?_zeros_append (n : Nat) (digits : Text) :
    hexNumber? (List.replicate n '0' ++ digits) = hexNumber? digits := by
  induction n with
  | zero => rfl
  | succ n ih => rw [List.replicate_succ, List.cons_append, hexNumber?_zero_cons, ih]

/-- The last digit is worth itself, the others sixteen times as much. -/
theorem hexNumber?_append_singleton {digits : Text} {last : Char} {n digit : Nat}
    (h : hexNumber? digits = some n) (hlast : hexDigit? last = some digit) :
    hexNumber? (digits ++ [last]) = some (16 * n + digit) := by
  obtain ⟨values, hvalues, rfl⟩ := Option.map_eq_some_iff.mp h
  rw [hexNumber?, List.mapM_append, hvalues]
  simp [hlast]

/-- A digit below sixteen is read as its value. -/
theorem hexDigit?_digitChar {n : Nat} (h : n < 16) : hexDigit? n.digitChar.toUpper = some n := by
  have hall : ∀ n < 16, hexDigit? n.digitChar.toUpper = some n := by decide
  exact hall n h

/-- The digits of a number are read as the number. -/
theorem hexNumber?_toDigits (n : Nat) :
    hexNumber? ((Nat.toDigits 16 n).map Char.toUpper) = some n := by
  induction n using Nat.strongRecOn with
  | ind n ih =>
    rw [Nat.toDigits_eq_if (by decide)]
    split
    · next hlt =>
      rw [List.map_singleton, hexNumber?, List.mapM_cons, hexDigit?_digitChar hlt]
      simp
    · next hle =>
      have hrest := ih (n / 16) (by omega)
      rw [List.map_append, List.map_singleton,
        hexNumber?_append_singleton hrest (hexDigit?_digitChar (Nat.mod_lt n (by decide))),
        Nat.div_add_mod]

/-- A number with leading zeros is read as the number. -/
theorem hexNumber?_hex (width n : Nat) : hexNumber? (hex width n) = some n := by
  rw [hex, hexNumber?_zeros_append, hexNumber?_toDigits]

/-- A number that fits has as many digits as are asked for. -/
theorem length_hex {width n : Nat} (hwidth : 0 < width) (h : n < Nat.pow 16 width) :
    (hex width n).length = width := by
  have hdigits : (Nat.toDigits 16 n).length ≤ width :=
    (Nat.length_toDigits_le_iff (by decide) hwidth).mpr h
  simp only [hex, List.length_append, List.length_replicate, List.length_map]
  omega

/-- Digits are written in capitals. -/
theorem mem_digits_of_mem_hex {width n : Nat} {c : Char} (h : c ∈ hex width n) :
    c ∈ "0123456789ABCDEF".toList := by
  have hdigit : ∀ n < 16, n.digitChar.toUpper ∈ "0123456789ABCDEF".toList := by decide
  have hdigits : ∀ n, ∀ c ∈ Nat.toDigits 16 n, c.toUpper ∈ "0123456789ABCDEF".toList := by
    intro n
    induction n using Nat.strongRecOn with
    | ind n ih =>
      intro c hc
      rw [Nat.toDigits_eq_if (by decide)] at hc
      split at hc
      · next hlt => exact List.mem_singleton.mp hc ▸ hdigit n hlt
      · next hle =>
        rcases List.mem_append.mp hc with hc | hc
        · exact ih (n / 16) (by omega) c hc
        · exact List.mem_singleton.mp hc ▸ hdigit _ (Nat.mod_lt n (by decide))
  rcases List.mem_append.mp h with h | h
  · rw [List.eq_of_mem_replicate h]
    decide
  · obtain ⟨digit, hmem, rfl⟩ := List.mem_map.mp h
    exact hdigits n digit hmem

/-- No digit breaks a line, and each is written as itself. -/
theorem of_mem_hex {width n : Nat} {c : Char} (h : c ∈ hex width n) :
    isBreak c = false ∧ isPrintable c = true := by
  have hall : "0123456789ABCDEF".toList.all (fun c => !isBreak c && isPrintable c) = true := by
    decide
  simpa using List.all_eq_true.mp hall c (mem_digits_of_mem_hex h)

/-- The code point of a character is read as the character. -/
theorem charOfHex?_hex (width : Nat) (c : Char) : charOfHex? (hex width c.toNat) = some c := by
  have hsplit (digits : Text) : charOfHex? digits = (hexNumber? digits).bind fun code =>
      if code.isValidChar then some (Char.ofNat code) else none := by
    rw [charOfHex?, hexNumber?]
    cases digits.mapM hexDigit? <;> rfl
  have hvalid : c.toNat.isValidChar := c.valid
  rw [hsplit, hexNumber?_hex, Option.bind_some, if_pos hvalid, Char.ofNat_toNat]

/-! ## Double quotes -/

/-- The escape of a code point is read as the character. -/
theorem escape?_hex {letter : Char} {width : Nat} (hwidth : 0 < width)
    (hletter : escapes.lookup letter = none) (hcode : codeEscapes.lookup letter = some width)
    {c : Char} (h : c.toNat < Nat.pow 16 width) (rest : Text) :
    escape? (letter :: hex width c.toNat ++ rest) = some (c, width + 1) := by
  have hlength := length_hex hwidth h
  have htake : (hex width c.toNat ++ rest).take width = hex width c.toNat := by
    rw [List.take_append_of_le_length hlength.ge, List.take_of_length_le hlength.le]
  rw [List.cons_append, escape?, hletter, hcode]
  simp only
  rw [htake, if_neg hlength.ge.not_gt, charOfHex?_hex, Option.map_some]

/-- What can be escaped by a letter is read from the letter, which is no line break. -/
theorem lookup_of_escapeLetters {c letter : Char} (h : escapeLetters.lookup c = some letter) :
    escapes.lookup letter = some c ∧ isBreak letter = false := by
  have hall : ∀ names ∈ escapeLetters,
      escapes.lookup names.2 = some names.1 ∧ isBreak names.2 = false := by decide
  obtain ⟨before, after, hletters, -⟩ := List.lookup_eq_some_iff.mp h
  exact hall (c, letter) (by rw [hletters]; simp)

/-- What cannot be escaped by a letter is none of these. -/
theorem ne_of_lookup_eq_none {c d : Char} (h : escapeLetters.lookup c = none)
    (hd : d ∈ escapeLetters.map (·.1)) : c ≠ d := by
  rintro rfl
  obtain ⟨names, hnames, rfl⟩ := List.mem_map.mp hd
  have hne := List.lookup_eq_none_iff.mp h names hnames
  simp at hne

/-- A character that stands for itself neither is a blank nor breaks a line, unless it is a space.
-/
theorem of_lookup_eq_none {c : Char} (h : escapeLetters.lookup c = none)
    (hprintable : isPrintable c = true) (hc : c ≠ ' ') :
    isBlank c = false ∧ isBreak c = false := by
  constructor
  · exact Bool.eq_false_iff.mpr fun hblank =>
      hc ((isBlank_iff_of_isPrintable hprintable).mp hblank)
  · refine Bool.eq_false_iff.mpr fun hbreak => ?_
    rcases eq_of_isBreak_of_isPrintable hbreak hprintable with hline | hline | hline
    all_goals exact ne_of_lookup_eq_none h (by decide) hline

/-- An escape is read as the character that it stands for. -/
theorem quotedWord?_escape {cursor : Cursor} {fuel length : Nat} {c : Char}
    {done escape rest : Text} (hrest : cursor.rest = '\\' :: escape ++ rest)
    (hescape : escape? (escape ++ rest) = some (c, length)) (hlength : escape.length = length)
    (hbreak : ∀ d ∈ escape, isBreak d = false) (hne : escape ≠ []) :
    quotedWord? false (fuel + 1) done cursor =
      quotedWord? false fuel (done ++ [c]) (cursor.advance ('\\' :: escape)) := by
  have hline : ((escape ++ rest).head?.any isBreak) = false := by
    cases escape with
    | nil => exact absurd rfl hne
    | cons d escape => exact hbreak d List.mem_cons_self
  have hunbroken : ∀ d ∈ '\\' :: escape, isBreak d = false := by
    intro d hd
    rcases List.mem_cons.mp hd with rfl | hd
    · decide
    · exact hbreak d hd
  have hmark : (isBlank '\\' || isBreak '\\') = false ∧ '\\' ≠ '"' := by decide
  rw [List.cons_append] at hrest
  rw [quotedWord?, hrest, Cursor.advance_eq_skipMany hunbroken, List.length_cons, hlength]
  simp only [hmark, hline, hescape, Bool.false_eq_true, if_false, if_true]
  rfl

/-- A character that stands for itself is read as itself. -/
theorem quotedWord?_char {single : Bool} {cursor : Cursor} {fuel : Nat} {c : Char}
    {done rest : Text} (hrest : cursor.rest = c :: rest) (hblank : isBlank c = false)
    (hbreak : isBreak c = false) (hquote : c ≠ if single then '\'' else '"')
    (hescape : single = false → c ≠ '\\') :
    quotedWord? single (fuel + 1) done cursor =
      quotedWord? single fuel (done ++ [c]) (cursor.advance [c]) := by
  rw [quotedWord?, hrest, Cursor.advance_singleton hbreak]
  cases single with
  | true =>
    have hne : c ≠ '\'' := hquote
    simp [hblank, hbreak, hne]
  | false =>
    have hne : c ≠ '"' := hquote
    simp [hblank, hbreak, hne, hescape rfl]

/-- A character that is no space is read as it was escaped. -/
theorem quotedWord?_escaped {cursor : Cursor} {fuel : Nat} {c : Char} {done rest : Text}
    (hc : c ≠ ' ') (hrest : cursor.rest = escaped c ++ rest) :
    quotedWord? false (fuel + 1) done cursor =
      quotedWord? false fuel (done ++ [c]) (cursor.advance (escaped c)) := by
  unfold escaped at hrest ⊢
  split at hrest
  · next letter hletter =>
    obtain ⟨hlookup, hbreak⟩ := lookup_of_escapeLetters hletter
    refine quotedWord?_escape hrest ?_ rfl (by simpa using hbreak) (List.cons_ne_nil _ _)
    rw [List.singleton_append, escape?, hlookup]
    rfl
  · next hletter =>
    have hne {d : Char} (hd : d ∈ escapeLetters.map (·.1)) : c ≠ d :=
      ne_of_lookup_eq_none hletter hd
    have hcode {letter : Char} {width : Nat} (hwidth : 0 < width)
        (hescapes : escapes.lookup letter = none)
        (hcodes : codeEscapes.lookup letter = some width) (hbreak : isBreak letter = false)
        (hle : c.toNat < Nat.pow 16 width)
        (hrest : cursor.rest = '\\' :: letter :: hex width c.toNat ++ rest) :
        quotedWord? false (fuel + 1) done cursor = quotedWord? false fuel (done ++ [c])
          (cursor.advance ('\\' :: letter :: hex width c.toNat)) := by
      refine quotedWord?_escape hrest (escape?_hex hwidth hescapes hcodes hle rest) ?_ ?_
        (List.cons_ne_nil _ _)
      · rw [List.length_cons, length_hex hwidth hle]
      · intro d hd
        rcases List.mem_cons.mp hd with rfl | hd
        · exact hbreak
        · exact (of_mem_hex hd).1
    split_ifs at hrest ⊢ with hprintable htwo hfour
    · obtain ⟨hblank, hbreak⟩ := of_lookup_eq_none hletter hprintable hc
      exact quotedWord?_char hrest hblank hbreak (hne (by decide)) fun _ => hne (by decide)
    · exact hcode (by decide) rfl rfl rfl (Nat.lt_of_le_of_lt htwo (by decide)) hrest
    · exact hcode (by decide) rfl rfl rfl (Nat.lt_of_le_of_lt hfour (by decide)) hrest
    · have hlast : c.toNat ≤ 0x10FFFF := by
        have hvalid : c.toNat < 0xD800 ∨ 0xDFFF < c.toNat ∧ c.toNat < 0x110000 := c.valid
        omega
      exact hcode (by decide) rfl rfl rfl (Nat.lt_of_le_of_lt hlast (by decide)) hrest

/-- Characters that are no spaces are read as they were escaped. -/
theorem quotedWord?_flatMap_escaped {cursor : Cursor} {fuel : Nat} {word done rest : Text}
    (hword : ∀ c ∈ word, c ≠ ' ') (hrest : cursor.rest = word.flatMap escaped ++ rest) :
    quotedWord? false (fuel + word.length) done cursor =
      quotedWord? false fuel (done ++ word) (cursor.advance (word.flatMap escaped)) := by
  induction word generalizing cursor done with
  | nil =>
    rw [List.append_nil]
    rfl
  | cons c word ih =>
    rw [List.flatMap_cons, List.append_assoc] at hrest
    have hafter : (cursor.advance (escaped c)).rest = word.flatMap escaped ++ rest :=
      Cursor.rest_advance_of_eq hrest
    rw [List.length_cons, ← Nat.add_assoc, quotedWord?_escaped (hword c List.mem_cons_self) hrest,
      ih (fun d hd => hword d (List.mem_cons_of_mem _ hd)) hafter, List.flatMap_cons,
      Cursor.advance_append, List.append_assoc]
    rfl

/-- A word ends before a blank or a line break. -/
theorem quotedWord?_of_gap {single : Bool} {cursor : Cursor} {fuel : Nat} {c : Char}
    {done rest : Text} (hrest : cursor.rest = c :: rest)
    (hc : (isBlank c || isBreak c) = true) :
    quotedWord? single fuel done cursor = some (done, false, cursor) := by
  cases fuel with
  | zero => rfl
  | succ fuel => rw [quotedWord?, hrest]; exact if_pos hc

/-- A word ends before the closing quote. -/
theorem quotedWord?_of_close {single : Bool} {cursor : Cursor} {fuel : Nat} {done rest : Text}
    (hrest : cursor.rest = (if single then '\'' else '"') :: rest)
    (hclose : single = true → rest.head? ≠ some '\'') :
    quotedWord? single fuel done cursor = some (done, false, cursor) := by
  cases fuel with
  | zero => rfl
  | succ fuel =>
    rw [quotedWord?, hrest]
    cases single with
    | true => simp [hclose rfl, show (isBlank '\'' || isBreak '\'') = false from by decide]
    | false => simp [show (isBlank '"' || isBreak '"') = false from by decide]

/-- A word is read up to where it ends, as there is fuel enough. -/
theorem quotedWord?_of_end {single : Bool} {cursor place : Cursor} {word : Text} (done : Text)
    (hword : ∀ fuel, quotedWord? single (fuel + word.length) done cursor =
      quotedWord? single fuel (done ++ word) place)
    (hlength : word.length ≤ cursor.rest.length)
    (hend : ∀ fuel, quotedWord? single fuel (done ++ word) place =
      some (done ++ word, false, place)) :
    quotedWord? single (cursor.rest.length + 1) done cursor =
      some (done ++ word, false, place) := by
  obtain ⟨spare, hspare⟩ : ∃ spare, cursor.rest.length + 1 = spare + word.length :=
    ⟨cursor.rest.length + 1 - word.length, by omega⟩
  rw [hspare, hword, hend]

/-- A scalar ends with its closing quote. -/
theorem quotedFrom?_of_close {single : Bool} {cursor stop : Cursor} {fuel : Nat}
    {done value : Text} (hcol : 0 < cursor.col) (hne : cursor.rest ≠ [])
    (hword : quotedWord? single (cursor.rest.length + 1) done cursor = some (value, false, stop))
    (hclose : stop.sees (if single then '\'' else '"') = true) :
    quotedFrom? single (fuel + 1) done cursor = some (value, stop.skip) := by
  have hnonempty : cursor.rest.isEmpty = false := by simpa using hne
  rw [quotedFrom?, Cursor.atDocumentMark_of_pos hcol, hnonempty]
  simp [hword, hclose]

/-- A scalar goes on after a gap. -/
theorem quotedFrom?_of_gap {single : Bool} {cursor stop next : Cursor} {fuel : Nat} {gap : Gap}
    {done value : Text} (hcol : 0 < cursor.col) (hne : cursor.rest ≠ [])
    (hword : quotedWord? single (cursor.rest.length + 1) done cursor = some (value, false, stop))
    (hclose : stop.sees (if single then '\'' else '"') = false)
    (hgap : Gap.read? (fun _ => false) stop.rest.length {} stop = some (gap, next)) :
    quotedFrom? single (fuel + 1) done cursor =
      quotedFrom? single fuel (value ++ gap.value) next := by
  have hnonempty : cursor.rest.isEmpty = false := by simpa using hne
  rw [quotedFrom?, Cursor.atDocumentMark_of_pos hcol, hnonempty]
  simp [hword, hclose, hgap]

/-- An escape neither begins with a blank nor breaks a line, unless it is that of a space. -/
theorem exists_escaped_eq_cons {c : Char} (hc : c ≠ ' ') :
    ∃ first more, escaped c = first :: more ∧ isBlank first = false ∧ isBreak first = false := by
  unfold escaped
  split
  · exact ⟨_, _, rfl, by decide, by decide⟩
  · next hletter =>
    split_ifs with hprintable
    · exact ⟨c, [], rfl, of_lookup_eq_none hletter hprintable hc⟩
    · exact ⟨_, _, rfl, by decide, by decide⟩
    · exact ⟨_, _, rfl, by decide, by decide⟩
    · exact ⟨_, _, rfl, by decide, by decide⟩

/-- Escapes take up no less space than what they stand for. -/
theorem length_le_flatMap_escaped (text : Text) : text.length ≤ (text.flatMap escaped).length := by
  induction text with
  | nil => exact Nat.le_refl _
  | cons c text ih =>
    have hpos : 0 < (escaped c).length := by
      by_cases hc : c = ' '
      · rw [hc]
        decide
      · obtain ⟨first, more, hescaped, -⟩ := exists_escaped_eq_cons hc
        rw [hescaped]
        exact Nat.succ_pos _
    rw [List.flatMap_cons, List.length_append, List.length_cons]
    omega

/-- Escapes end a gap. -/
theorem halts_flatMap_escaped {text rest : Text} (h : text.head? ≠ some ' ') :
    Halts (text.flatMap escaped ++ '"' :: rest) := by
  intro c hc
  cases text with
  | nil =>
    cases hc
    decide
  | cons d text =>
    obtain ⟨first, more, hescaped, hfirst⟩ :=
      exists_escaped_eq_cons fun heq => h (congrArg some heq)
    rw [List.flatMap_cons, hescaped] at hc
    cases hc
    exact hfirst

/-- Spaces stand for themselves. -/
theorem flatMap_escaped_spaces (n : Nat) : (spaces n).flatMap escaped = spaces n := by
  have hspace : escaped ' ' = [' '] := by decide
  induction n with
  | zero => rfl
  | succ n ih => rw [spaces_succ, List.flatMap_cons, ih, hspace, List.singleton_append]

/-- A text is read from its escapes up to the closing quote. -/
theorem quotedFrom?_doubleQuoted {text : Text} {cursor : Cursor} {fuel : Nat} {done rest : Text}
    (hcol : 0 < cursor.col) (hrest : cursor.rest = text.flatMap escaped ++ '"' :: rest)
    (hfuel : text.length < fuel) :
    quotedFrom? false fuel done cursor =
      some (done ++ text, cursor.advance (text.flatMap escaped ++ ['"'])) := by
  -- A word is read up to a space or the quote, and with the spaces after it the text gets shorter.
  induction hn : text.length using Nat.strongRecOn generalizing text cursor fuel done with
  | ind n ih =>
    obtain ⟨fuel, rfl⟩ : ∃ k, fuel = k + 1 := ⟨fuel - 1, by omega⟩
    obtain ⟨word, more, rfl, hword, hmore⟩ := exists_append_of_test (· != ' ') text
    rw [List.flatMap_append, List.append_assoc] at hrest
    have hword : ∀ c ∈ word, c ≠ ' ' := fun c hc => by simpa using hword c hc
    have hne : cursor.rest ≠ [] := by simp [hrest]
    have hstop : (cursor.advance (word.flatMap escaped)).rest =
        more.flatMap escaped ++ '"' :: rest := Cursor.rest_advance_of_eq hrest
    have hlength : word.length ≤ cursor.rest.length := by
      rw [hrest, List.length_append]
      exact Nat.le_add_right_of_le (length_le_flatMap_escaped word)
    have hread := quotedWord?_of_end done
      (fun _ => quotedWord?_flatMap_escaped hword hrest) hlength
    cases more with
    | nil =>
      rw [quotedFrom?_of_close hcol hne
        (hread fun _ => quotedWord?_of_close hstop (nomatch ·))
        (by rw [Cursor.sees, Cursor.next?, hstop]; rfl)]
      rw [List.append_nil, Cursor.advance_append, Cursor.advance_singleton (by decide)]
    | cons c more =>
      have hspace : (c :: more).head? = some ' ' :=
        congrArg some (by simpa using hmore c rfl)
      obtain ⟨k, after, hsplit, hafter⟩ := exists_eq_spaces_append hspace
      rw [hsplit] at hn hfuel hstop ⊢
      rw [List.length_append, List.length_append, length_spaces] at hn hfuel
      rw [List.flatMap_append, flatMap_escaped_spaces, List.append_assoc] at hstop
      generalize hplace : cursor.advance (word.flatMap escaped) = place at hstop hread
      have hgap : Gap.read? (fun _ => false) place.rest.length {} place =
          some (⟨spaces (k + 1), [], [], false⟩, place.advance (spaces (k + 1))) := by
        refine Gap.read?_spaces rfl hstop (halts_flatMap_escaped hafter) ?_
        rw [hstop, List.length_append, length_spaces]
        omega
      have hnext : (place.advance (spaces (k + 1))).rest = after.flatMap escaped ++ '"' :: rest :=
        Cursor.rest_advance_of_eq hstop
      have hnextCol : 0 < (place.advance (spaces (k + 1))).col := by
        rw [Cursor.col_advance fun d hd => isBreak_of_mem_spaces hd, length_spaces]
        omega
      rw [quotedFrom?_of_gap hcol hne
        (hread fun _ => quotedWord?_of_gap (by rw [hstop]; rfl) (by decide))
        (by rw [Cursor.sees, Cursor.next?, hstop]; rfl) hgap,
        ih after.length (by omega) hnextCol hnext (by omega) rfl, ← hplace]
      simp [Gap.value, List.flatMap_append, flatMap_escaped_spaces, Cursor.advance_append]

/-- A text in double quotes is read back. -/
theorem quoted?_doubleQuoted {text rest : Text} {cursor : Cursor}
    (hrest : cursor.rest = doubleQuoted text ++ rest) :
    quoted? false cursor = some (text, cursor.advance (doubleQuoted text)) := by
  have hquote : cursor.skip = cursor.advance ['"'] :=
    (Cursor.advance_singleton (by decide)).symm
  have hcol : 0 < (cursor.advance ['"']).col := Nat.succ_pos _
  have hinside : (cursor.advance ['"']).rest = text.flatMap escaped ++ '"' :: rest := by
    refine Cursor.rest_advance_of_eq ?_
    rw [hrest, doubleQuoted]
    simp
  have hfuel : text.length < cursor.rest.length + 1 := by
    have hlength := length_le_flatMap_escaped text
    simp only [hrest, doubleQuoted, List.length_append, List.length_cons]
    omega
  rw [quoted?, hquote, quotedFrom?_doubleQuoted hcol hinside hfuel]
  rfl

end Scalar
end LinkedNotes.Yaml
