import LinkedNotes.Yaml.Scalar
import LinkedNotes.Yaml.Tree
import Mathlib.Data.List.Chain

/-!
# Places in a document after a text

Where a place in a document is once a text has been read, and the blanks and line breaks between the
parts of a scalar. Main definition: `Cursor.advance`. All scalars are read back in terms of it.
-/

namespace LinkedNotes.Yaml

open Tree

/-! ## Characters -/

/-- The only blank that is written as itself is the space. -/
theorem isBlank_iff_of_isPrintable {c : Char} (h : isPrintable c = true) :
    isBlank c = true ↔ c = ' ' := by
  have htab : c ≠ '\t' := by
    rintro rfl
    exact absurd h (by decide)
  simp [isBlank, htab]

/-- The breaks that are written as themselves are the line feed and the Unicode separators. -/
theorem eq_of_isBreak_of_isPrintable {c : Char} (hbreak : isBreak c = true)
    (h : isPrintable c = true) : c = '\n' ∨ c = '\u2028' ∨ c = '\u2029' := by
  simp only [isBreak, Bool.or_eq_true, beq_iff_eq, or_assoc] at hbreak
  rcases hbreak with rfl | rfl | rfl | hbreak
  · exact .inl rfl
  · exact absurd h (by decide)
  · exact absurd h (by decide)
  · exact .inr hbreak

/-- The line feed breaks a line and is written as itself. -/
theorem of_mem_feed {c : Char} (h : c ∈ ['\n']) : isBreak c = true ∧ isPrintable c = true := by
  rw [List.mem_singleton.mp h]
  decide

/-- What is written as itself may stand in a document. -/
theorem isAllowed_of_isPrintable {c : Char} (h : isPrintable c = true) : isAllowed c = true := by
  have hvalid : c.toNat < 0xD800 ∨ 0xDFFF < c.toNat ∧ c.toNat < 0x110000 := c.valid
  simp only [isPrintable, isAllowed, Bool.or_eq_true, Bool.and_eq_true, beq_iff_eq, bne_iff_ne,
    decide_eq_true_eq] at h ⊢
  omega

/-- No blank breaks a line. -/
theorem isBreak_eq_false_of_isBlank {c : Char} (h : isBlank c = true) : isBreak c = false := by
  simp only [isBlank, Bool.or_eq_true, beq_iff_eq] at h
  rcases h with rfl | rfl <;> decide

/-- Whether a text does not go on with a blank or a line break. -/
def Halts (rest : Text) : Prop :=
  ∀ c ∈ rest.head?, isBlank c = false ∧ isBreak c = false

/-- What neither is a blank nor breaks a line is no tab. -/
theorem Halts.ne_tab {rest : Text} (h : Halts rest) :
    ∀ c ∈ rest.head?, isBreak c = false ∧ c ≠ '\t' := fun c hc =>
  ⟨(h c hc).2, fun heq => absurd (heq ▸ (h c hc).1) (by decide)⟩

namespace Cursor

/-- The place after a text. -/
def advance (cursor : Cursor) : Text → Cursor
  | [] => cursor
  | c :: text =>
    advance
      ⟨cursor.rest.drop 1, cursor.index + 1,
        if isBreak c then cursor.line + 1 else cursor.line,
        if isBreak c then 0 else cursor.col + 1⟩ text

@[simp]
theorem advance_nil (cursor : Cursor) : cursor.advance [] = cursor := rfl

/-- One text after the other. -/
theorem advance_append (cursor : Cursor) (s t : Text) :
    cursor.advance (s ++ t) = (cursor.advance s).advance t := by
  induction s generalizing cursor with
  | nil => rfl
  | cons c s ih => exact ih _

/-- The first character before the others. -/
theorem advance_cons (cursor : Cursor) (c : Char) (text : Text) :
    cursor.advance (c :: text) = (cursor.advance [c]).advance text := rfl

@[simp]
theorem rest_advance (cursor : Cursor) (text : Text) :
    (cursor.advance text).rest = cursor.rest.drop text.length := by
  induction text generalizing cursor with
  | nil => rfl
  | cons c text ih =>
    rw [advance, ih, List.drop_drop, List.length_cons, Nat.add_comm]

@[simp]
theorem index_advance (cursor : Cursor) (text : Text) :
    (cursor.advance text).index = cursor.index + text.length := by
  induction text generalizing cursor with
  | nil => rfl
  | cons c text ih =>
    rw [advance, ih, List.length_cons, Nat.add_assoc, Nat.add_comm 1]

/-- What follows a text that was read. -/
theorem rest_advance_of_eq {cursor : Cursor} {text rest : Text} (h : cursor.rest = text ++ rest) :
    (cursor.advance text).rest = rest := by
  rw [rest_advance, h, List.drop_left]

/-- Reading leaves no more than there was. -/
theorem length_rest_advance_le (cursor : Cursor) (text : Text) :
    (cursor.advance text).rest.length ≤ cursor.rest.length := by
  rw [rest_advance, List.length_drop]
  exact Nat.sub_le _ _

/-- Reading does not go back to an earlier line. -/
theorem line_le_advance (cursor : Cursor) (text : Text) :
    cursor.line ≤ (cursor.advance text).line := by
  induction text generalizing cursor with
  | nil => exact Nat.le_refl _
  | cons c text ih =>
    refine Nat.le_trans ?_ (ih _)
    show cursor.line ≤ if isBreak c then cursor.line + 1 else cursor.line
    split <;> omega

/-- A text without line breaks is passed over in its line. -/
theorem advance_eq_skipMany {cursor : Cursor} {text : Text}
    (h : ∀ c ∈ text, isBreak c = false) : cursor.advance text = cursor.skipMany text.length := by
  induction text generalizing cursor with
  | nil => rfl
  | cons c text ih =>
    rw [advance, ih fun d hd => h d (List.mem_cons_of_mem _ hd), h c List.mem_cons_self]
    simp [skipMany, Nat.add_comm, Nat.add_left_comm]

/-- A character that breaks no line is skipped. -/
theorem advance_singleton {cursor : Cursor} {c : Char} (h : isBreak c = false) :
    cursor.advance [c] = cursor.skip := by
  rw [advance, h]
  rfl

/-- The column after a text without line breaks. -/
theorem col_advance {cursor : Cursor} {text : Text} (h : ∀ c ∈ text, isBreak c = false) :
    (cursor.advance text).col = cursor.col + text.length := by
  rw [advance_eq_skipMany h]
  rfl

/-- After a line break the column is zero. -/
theorem col_advance_break {cursor : Cursor} {c : Char} (hc : isBreak c = true) :
    (cursor.advance [c]).col = 0 := by
  show (if isBreak c then 0 else cursor.col + 1) = 0
  rw [if_pos hc]

/-- Line breaks at the start of a line lead to the start of a line. -/
theorem col_advance_breaks {cursor : Cursor} {breaks : Text}
    (hbreaks : ∀ c ∈ breaks, isBreak c = true) (hcol : cursor.col = 0) :
    (cursor.advance breaks).col = 0 := by
  induction breaks generalizing cursor with
  | nil => exact hcol
  | cons c breaks ih =>
    exact ih (fun d hd => hbreaks d (List.mem_cons_of_mem _ hd))
      (col_advance_break (hbreaks c List.mem_cons_self))

/-- The column after line breaks and a text without any. -/
theorem col_advance_lines {cursor : Cursor} {c : Char} {breaks text : Text}
    (hbreaks : ∀ d ∈ c :: breaks, isBreak d = true) (h : ∀ d ∈ text, isBreak d = false) :
    (cursor.advance (c :: breaks ++ text)).col = text.length := by
  have hcol : (cursor.advance (c :: breaks)).col = 0 := by
    rw [advance_cons]
    exact col_advance_breaks (fun d hd => hbreaks d (List.mem_cons_of_mem _ hd))
      (col_advance_break (hbreaks c List.mem_cons_self))
  rw [advance_append, col_advance h, hcol, Nat.zero_add]

/-- After a line break there is a later line. -/
theorem line_lt_advance {cursor : Cursor} {c : Char} {text : Text} (hc : isBreak c = true) :
    cursor.line < (cursor.advance (c :: text)).line := by
  refine Nat.lt_of_lt_of_le ?_ (line_le_advance _ text)
  show cursor.line < if isBreak c then cursor.line + 1 else cursor.line
  rw [if_pos hc]
  exact Nat.lt_succ_self _

/-- A break that is written as itself is read as itself. -/
theorem takeBreak_eq {cursor : Cursor} {c : Char} {rest : Text} (hrest : cursor.rest = c :: rest)
    (hc : isBreak c = true) (hprintable : isPrintable c = true) :
    cursor.takeBreak = ([c], cursor.advance [c]) := by
  have hadvance : cursor.advance [c] = ⟨rest, cursor.index + 1, cursor.line + 1, 0⟩ := by
    rw [advance, hc, hrest]
    rfl
  rw [hadvance, takeBreak, hrest]
  rcases eq_of_isBreak_of_isPrintable hc hprintable with rfl | rfl | rfl <;> rfl

/-- No mark between documents stands behind the start of a line. -/
theorem atDocumentMark_of_pos {cursor : Cursor} (h : 0 < cursor.col) :
    cursor.atDocumentMark = false := by
  have hcol : (cursor.col == 0) = false := beq_eq_false_iff_ne.mpr h.ne'
  simp [atDocumentMark, atMark, hcol]

end Cursor

/-! ## Spaces -/

namespace Tree

@[simp]
theorem length_spaces (n : Nat) : (spaces n).length = n :=
  List.length_replicate

/-- Spaces are blanks, which break no line. -/
theorem of_mem_spaces {n : Nat} {c : Char} (h : c ∈ spaces n) : c = ' ' :=
  List.eq_of_mem_replicate h

/-- Spaces break no line. -/
theorem isBreak_of_mem_spaces {n : Nat} {c : Char} (h : c ∈ spaces n) : isBreak c = false := by
  rw [of_mem_spaces h]
  decide

/-- One space before the others. -/
theorem spaces_succ (n : Nat) : spaces (n + 1) = ' ' :: spaces n := rfl

end Tree

namespace Cursor

variable {text : Text} (hbreak : text.getLast?.any isBreak = true)
include hbreak

/-- The column after the indentation behind a line break. -/
theorem col_advance_spaces (cursor : Cursor) (n : Nat) :
    (cursor.advance (text ++ spaces n)).col = n := by
  obtain ⟨c, hlast, hc⟩ := (Option.any_eq_true _ _).mp hbreak
  obtain ⟨start, rfl⟩ := List.getLast?_eq_some_iff.mp hlast
  rw [List.append_assoc, advance_append, col_advance_lines (by simpa using hc) fun d hd =>
    isBreak_of_mem_spaces hd, length_spaces]

/-- A text that ends with a line break leads to a later line. -/
theorem line_lt_advance_append (cursor : Cursor) (more : Text) :
    cursor.line < (cursor.advance (text ++ more)).line := by
  obtain ⟨c, hlast, hc⟩ := (Option.any_eq_true _ _).mp hbreak
  obtain ⟨start, rfl⟩ := List.getLast?_eq_some_iff.mp hlast
  rw [List.append_assoc, advance_append]
  exact Nat.lt_of_le_of_lt (line_le_advance cursor start) (line_lt_advance hc)

end Cursor

/-! ## Gaps -/

namespace Scalar.Gap

variable {refuses : Cursor → Bool} {gap : Gap} {cursor : Cursor} {fuel : Nat}

/-- A gap ends before what is neither a blank nor a line break. -/
theorem read?_of_halts (h : Halts cursor.rest) :
    read? refuses fuel gap cursor = some (gap, cursor) := by
  cases fuel with
  | zero => rfl
  | succ fuel =>
    rw [read?]
    cases hnext : cursor.next? with
    | none => rfl
    | some c =>
      obtain ⟨hblank, hbreak⟩ := h c hnext
      simp [hblank, hbreak]

/-- Spaces inside of a line are kept. -/
theorem read?_spaces {n : Nat} {rest : Text} (hgap : gap.broken = false)
    (hrest : cursor.rest = spaces n ++ rest) (hstop : Halts rest) (hfuel : n ≤ fuel) :
    read? refuses fuel gap cursor =
      some ({ gap with blanks := gap.blanks ++ spaces n }, cursor.advance (spaces n)) := by
  induction n generalizing gap cursor fuel with
  | zero =>
    rw [read?_of_halts (by rwa [hrest])]
    simp [spaces]
  | succ n ih =>
    obtain ⟨fuel, rfl⟩ : ∃ k, fuel = k + 1 := ⟨fuel - 1, by omega⟩
    have hnext : cursor.next? = some ' ' := by rw [Cursor.next?, hrest]; rfl
    have hafter : (cursor.advance [' ']).rest = spaces n ++ rest :=
      Cursor.rest_advance_of_eq hrest
    rw [read?, hnext, ← Cursor.advance_singleton (c := ' ') (by decide)]
    simp only [show isBlank ' ' = true from by decide, if_true, hgap, Bool.false_eq_true, if_false]
    rw [ih rfl hafter (Nat.le_of_succ_le_succ hfuel), List.append_assoc]
    rfl

/-- Indentation after a line break does not count. -/
theorem read?_indentation {n : Nat} {rest : Text} (hgap : gap.broken = true)
    (hrefuses : ∀ place : Cursor, place.sees ' ' = true → refuses place = false)
    (hrest : cursor.rest = spaces n ++ rest) (hstop : Halts rest) (hfuel : n ≤ fuel) :
    read? refuses fuel gap cursor = some (gap, cursor.advance (spaces n)) := by
  induction n generalizing cursor fuel with
  | zero => exact read?_of_halts (by rwa [hrest])
  | succ n ih =>
    obtain ⟨fuel, rfl⟩ : ∃ k, fuel = k + 1 := ⟨fuel - 1, by omega⟩
    have hnext : cursor.next? = some ' ' := by rw [Cursor.next?, hrest]; rfl
    have hafter : (cursor.advance [' ']).rest = spaces n ++ rest :=
      Cursor.rest_advance_of_eq hrest
    have hrefuse : refuses cursor = false := hrefuses cursor (by rw [Cursor.sees, hnext]; rfl)
    rw [read?, hnext, ← Cursor.advance_singleton (c := ' ') (by decide)]
    simp only [show isBlank ' ' = true from by decide, if_true, hgap, hrefuse, Bool.false_eq_true,
      if_false]
    exact ih hafter (Nat.le_of_succ_le_succ hfuel)

/-- A line break is added to a gap. -/
theorem read?_break {c : Char} {rest : Text} (hrest : cursor.rest = c :: rest)
    (hc : isBreak c = true) (hprintable : isPrintable c = true) :
    read? refuses (fuel + 1) gap cursor =
      read? refuses fuel (gap.addBreak [c]) (cursor.advance [c]) := by
  have hnext : cursor.next? = some c := by rw [Cursor.next?, hrest]; rfl
  have hblank : isBlank c = false := by
    cases hblank : isBlank c with
    | false => rfl
    | true =>
      rw [isBreak_eq_false_of_isBlank hblank] at hc
      cases hc
  rw [read?, hnext]
  simp only [hblank, hc, Bool.false_eq_true, if_false, if_true]
  rw [Cursor.takeBreak_eq hrest hc hprintable]

/-- Further line breaks are kept one after the other. -/
theorem read?_breaks {breaks rest : Text} (hgap : gap.broken = true)
    (hbreaks : ∀ c ∈ breaks, isBreak c = true ∧ isPrintable c = true)
    (hrest : cursor.rest = breaks ++ rest) :
    read? refuses (fuel + breaks.length) gap cursor =
      read? refuses fuel { gap with more := gap.more ++ breaks } (cursor.advance breaks) := by
  induction breaks generalizing gap cursor with
  | nil =>
    rw [List.append_nil]
    rfl
  | cons c breaks ih =>
    obtain ⟨hc, hprintable⟩ := hbreaks c List.mem_cons_self
    have hafter : (cursor.advance [c]).rest = breaks ++ rest := Cursor.rest_advance_of_eq hrest
    have hadd : gap.addBreak [c] = { gap with more := gap.more ++ [c] } := by
      rw [addBreak, if_pos hgap]
    have hbroken : ({ gap with more := gap.more ++ [c] } : Gap).broken = true := hgap
    rw [List.length_cons, ← Nat.add_assoc, read?_break hrest hc hprintable, hadd,
      ih hbroken (fun d hd => hbreaks d (List.mem_cons_of_mem _ hd)) hafter, List.append_assoc]
    rfl

/-- Line breaks with indentation after them. -/
theorem read?_lines {c : Char} {breaks rest : Text} {n : Nat}
    (hrefuses : ∀ place : Cursor, place.sees ' ' = true → refuses place = false)
    (hbreaks : ∀ d ∈ c :: breaks, isBreak d = true ∧ isPrintable d = true)
    (hrest : cursor.rest = c :: breaks ++ (spaces n ++ rest)) (hstop : Halts rest)
    (hfuel : (c :: breaks).length + n ≤ fuel) :
    read? refuses fuel {} cursor =
      some (⟨[], [c], breaks, true⟩, cursor.advance (c :: breaks ++ spaces n)) := by
  obtain ⟨hc, hprintable⟩ := hbreaks c List.mem_cons_self
  obtain ⟨spare, rfl⟩ : ∃ spare, fuel = spare + breaks.length + 1 :=
    ⟨fuel - (breaks.length + 1), by rw [List.length_cons] at hfuel; omega⟩
  have hspare : n ≤ spare := by
    rw [List.length_cons] at hfuel
    omega
  have hfirst : (cursor.advance [c]).rest = breaks ++ (spaces n ++ rest) :=
    Cursor.rest_advance_of_eq hrest
  have hmore : ((cursor.advance [c]).advance breaks).rest = spaces n ++ rest :=
    Cursor.rest_advance_of_eq hfirst
  rw [read?_break hrest hc hprintable,
    read?_breaks rfl (fun d hd => hbreaks d (List.mem_cons_of_mem _ hd)) hfirst,
    read?_indentation rfl hrefuses hmore hstop hspare]
  rw [Cursor.advance_append, Cursor.advance_cons]
  rfl

end Scalar.Gap
end LinkedNotes.Yaml
