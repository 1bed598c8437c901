import LinkedNotes.Proofs.Yaml.Cursor
import LinkedNotes.Proofs.Yaml.Lines

/-!
# Texts as blocks

A text of several lines that was written as a block is read back: its lines with their indentation
taken off, the line breaks in front of them, and as many at the end as the mark of the block says.
-/

namespace LinkedNotes.Yaml

open Tree

namespace Scalar

/-! ## The mark of a block -/

/-- What the end of a text asks of a block. -/
def chompingOf (text : Text) : Chomping :=
  match text.reverse with
  | last :: before =>
    if !isBreak last then .strip else if before.head?.all isBreak then .keep else .clip
  | [] => .strip

/-- The letter of a chomping. -/
def Chomping.letter : Chomping → Text
  | .strip => ['-']
  | .clip => []
  | .keep => ['+']

/-- What is kept of the line breaks at the end of a block. -/
def Chomping.kept (first more : Text) : Chomping → Text
  | .strip => []
  | .clip => first
  | .keep => first ++ more

/-- The letter that is written says what the end of the text asks for. -/
theorem chomping_eq (text : Text) : chomping text = (chompingOf text).letter := by
  unfold chomping chompingOf
  cases text.reverse with
  | nil => rfl
  | cons last before =>
    simp only
    split_ifs <;> rfl

/-- Only the last two characters count. -/
theorem chompingOf_append {s t : Text} (hne : t ≠ []) (hhead : ∀ c ∈ t.head?, isBreak c = false) :
    chompingOf (s ++ t) = chompingOf t := by
  unfold chompingOf
  rw [List.reverse_append]
  cases hreverse : t.reverse with
  | nil => exact absurd (List.reverse_eq_nil_iff.mp hreverse) hne
  | cons last before =>
    cases before with
    | nil =>
      have hlast : t = [last] := by rw [← List.reverse_reverse t, hreverse]; rfl
      have hbreak : isBreak last = false := hhead last (by rw [hlast]; rfl)
      simp [hbreak]
    | cons other before => rfl

/-- A text without line breaks asks for none. -/
theorem chompingOf_of_unbroken {text : Text} (h : ∀ c ∈ text, isBreak c = false) :
    chompingOf text = .strip := by
  unfold chompingOf
  split
  · next last before hreverse =>
    have hlast : isBreak last = false := h last (by
      rw [← List.mem_reverse, hreverse]
      exact List.mem_cons_self)
    rw [hlast]
    rfl
  · rfl

/-- A line with breaks behind it asks for one, or for all of several. -/
theorem chompingOf_line_append {line breaks : Text} {b : Char} (hne : line ≠ [])
    (hline : ∀ c ∈ line, isBreak c = false) (hbreaks : ∀ c ∈ b :: breaks, isBreak c = true) :
    chompingOf (line ++ b :: breaks) = if breaks = [] then .clip else .keep := by
  have hreverse : (line ++ b :: breaks).reverse = breaks.reverse ++ b :: line.reverse := by simp
  have hmore (c : Char) (hc : c ∈ breaks.reverse) : isBreak c = true :=
    hbreaks c (List.mem_cons_of_mem _ (List.mem_reverse.mp hc))
  rw [chompingOf, hreverse]
  cases hlater : breaks.reverse with
  | nil =>
    obtain ⟨c, hc⟩ := Option.isSome_iff_exists.mp
      (List.isSome_head?.mpr (List.reverse_ne_nil_iff.mpr hne))
    have hline : isBreak c = false := hline c (List.mem_reverse.mp (List.mem_of_mem_head? hc))
    simp [hbreaks b List.mem_cons_self, hc, hline, List.reverse_eq_nil_iff.mp hlater]
  | cons last before =>
    have hbreaksNe : breaks ≠ [] := by
      rintro rfl
      cases hlater
    have hbefore : (before ++ b :: line.reverse).head?.all isBreak = true := by
      cases before with
      | nil => exact hbreaks b List.mem_cons_self
      | cons c before => exact hmore c (by simp [hlater])
    have hlast : isBreak last = true := hmore last (by simp [hlater])
    simp only [List.cons_append, hlast, hbefore, Bool.not_true, Bool.false_eq_true, if_false,
      if_true, if_neg hbreaksNe]

/-- Line breaks alone ask for all of them. -/
theorem chompingOf_of_breaks {breaks : Text} {b : Char}
    (hbreaks : ∀ c ∈ b :: breaks, isBreak c = true) : chompingOf (b :: breaks) = .keep := by
  unfold chompingOf
  cases hreverse : (b :: breaks).reverse with
  | nil => simp at hreverse
  | cons last before =>
    have hmem (c : Char) (hc : c ∈ last :: before) : isBreak c = true :=
      hbreaks c (by rwa [← hreverse, List.mem_reverse] at hc)
    have hbefore : before.head?.all isBreak = true := by
      cases before with
      | nil => rfl
      | cons c before => exact hmem c (by simp)
    simp [hmem last List.mem_cons_self, hbefore]

/-- The mark of a block is read. -/
theorem header?_eq {cursor : Cursor} {chomping : Chomping} {hinted : Bool} {rest : Text}
    (hrest : cursor.rest = (if hinted then ['2'] else []) ++ chomping.letter ++ '\n' :: rest) :
    header? cursor = some (chomping, if hinted then some 2 else none,
      cursor.advance ((if hinted then ['2'] else []) ++ chomping.letter)) := by
  cases hinted <;> cases chomping
  all_goals
    simp [header?, Cursor.next?, hrest, Chomping.letter, chompingOf?, indentOf?, Cursor.skip,
      Cursor.advance, isBreak]

/-! ## Line breaks and indentation -/

/-- Empty lines in front of a line of a block. -/
theorem blockBreaks?_breaks {cursor : Cursor} {indent fuel widest : Nat} {breaks done rest : Text}
    (hbreaks : ∀ c ∈ breaks, isBreak c = true ∧ isPrintable c = true) (hcol : cursor.col = 0)
    (hrest : cursor.rest = breaks ++ rest) :
    blockBreaks? indent (fuel + breaks.length) widest done cursor =
      blockBreaks? indent fuel widest (done ++ breaks) (cursor.advance breaks) := by
  induction breaks generalizing cursor done with
  | nil =>
    rw [List.append_nil]
    rfl
  | cons c breaks ih =>
    obtain ⟨hc, hprintable⟩ := hbreaks c List.mem_cons_self
    have hspace : c ≠ ' ' ∧ c ≠ '\t' := by
      constructor <;> rintro rfl <;> exact absurd hc (by decide)
    have hstay : cursor.skipMany 0 = cursor := rfl
    have hnext : cursor.next? = some c := by rw [Cursor.next?, hrest]; rfl
    have htab : cursor.sees '\t' = false := by simpa [Cursor.sees, hnext] using hspace.2
    have hafterCol : (cursor.advance [c]).col = 0 := Cursor.col_advance_break hc
    have hwhile : cursor.rest.takeWhile (· == ' ') = [] := by
      rw [hrest, List.cons_append, List.takeWhile_cons_of_neg (by simpa using hspace.1)]
    rw [List.length_cons, ← Nat.add_assoc, blockBreaks?, hwhile]
    simp only [List.length_nil, Nat.zero_min, ite_self, hstay, htab, hnext, hcol, Nat.max_zero,
      Bool.false_eq_true, and_false, if_false, Option.any_some, hc, if_true]
    rw [Cursor.takeBreak_eq hrest hc hprintable]
    simp only
    rw [ih (fun d hd => hbreaks d (List.mem_cons_of_mem _ hd)) hafterCol
      (Cursor.rest_advance_of_eq hrest), List.append_assoc]
    rfl

/-- Whether as many spaces count as the indentation of a line: all there are, or as many as the
block has on each line. An indentation of zero is not yet known. -/
def Indents (indent n : Nat) (rest : Text) : Prop :=
  0 < indent ∧ n = indent ∨ (indent = 0 ∨ n < indent) ∧ rest.head? ≠ some ' '

/-- What neither is a blank nor breaks a line ends the indentation of a block. -/
theorem Indents.of_halts {indent n : Nat} {rest : Text} (h : Halts rest) (hindent : n < indent) :
    Indents indent n rest :=
  .inr ⟨.inr hindent, fun heq => absurd (h ' ' heq).1 (by decide)⟩

/-- The indentation of a line of a block. -/
theorem blockBreaks?_spaces {cursor : Cursor} {indent fuel widest n : Nat} {done rest : Text}
    (hcol : cursor.col = 0) (hrest : cursor.rest = spaces n ++ rest)
    (hindent : Indents indent n rest)
    (hend : ∀ c ∈ rest.head?, isBreak c = false ∧ c ≠ '\t') :
    blockBreaks? indent (fuel + 1) widest done cursor =
      some (max widest n, done, cursor.advance (spaces n)) := by
  have hunbroken : ∀ c ∈ spaces n, isBreak c = false := fun c hc => isBreak_of_mem_spaces hc
  have hskip : cursor.skipMany n = cursor.advance (spaces n) := by
    rw [Cursor.advance_eq_skipMany hunbroken, length_spaces]
  have hafter := Cursor.rest_advance_of_eq hrest
  have hafterCol : (cursor.advance (spaces n)).col = n := by
    rw [Cursor.col_advance hunbroken, hcol, length_spaces, Nat.zero_add]
  have hcount : (if indent = 0 then (cursor.rest.takeWhile (· == ' ')).length
      else min (cursor.rest.takeWhile (· == ' ')).length (indent - cursor.col)) = n := by
    have hwhile : cursor.rest.takeWhile (· == ' ') = spaces n ++ rest.takeWhile (· == ' ') := by
      rw [hrest, List.takeWhile_append_of_pos fun c hc => by rw [of_mem_spaces hc]; rfl]
    rw [hwhile, List.length_append, length_spaces, hcol]
    rcases hindent with ⟨hpos, rfl⟩ | ⟨hindent, hother⟩
    · rw [if_neg hpos.ne']
      omega
    · have hnone : rest.takeWhile (· == ' ') = [] := by
        cases rest with
        | nil => rfl
        | cons c rest =>
          have hc : c ≠ ' ' := fun heq => hother (congrArg some heq)
          exact List.takeWhile_cons_of_neg (by simpa using hc)
      rw [hnone, List.length_nil]
      split_ifs <;> omega
  have htab : (cursor.advance (spaces n)).sees '\t' = false := by
    rw [Cursor.sees, Cursor.next?, hafter]
    exact beq_eq_false_iff_ne.mpr fun heq => (hend _ heq).2 rfl
  have hline : (cursor.advance (spaces n)).next?.any isBreak = false := by
    rw [Cursor.next?, hafter]
    cases hhead : rest.head? with
    | none => rfl
    | some c => exact (hend c hhead).1
  rw [blockBreaks?]
  simp only [hcount, hskip, htab, hline, hafterCol]
  simp

/-- Empty lines and the indentation after them. -/
theorem blockBreaks?_lines {cursor : Cursor} {indent fuel n : Nat} {breaks rest : Text}
    (hbreaks : ∀ c ∈ breaks, isBreak c = true ∧ isPrintable c = true) (hcol : cursor.col = 0)
    (hrest : cursor.rest = breaks ++ (spaces n ++ rest)) (hindent : Indents indent n rest)
    (hend : ∀ c ∈ rest.head?, isBreak c = false ∧ c ≠ '\t') (hfuel : breaks.length < fuel) :
    blockBreaks? indent fuel 0 [] cursor =
      some (n, breaks, cursor.advance (breaks ++ spaces n)) := by
  obtain ⟨spare, rfl⟩ : ∃ spare, fuel = spare + 1 + breaks.length :=
    ⟨fuel - breaks.length - 1, by omega⟩
  have hafterCol : (cursor.advance breaks).col = 0 :=
    Cursor.col_advance_breaks (fun c hc => (hbreaks c hc).1) hcol
  rw [blockBreaks?_breaks hbreaks hcol hrest,
    blockBreaks?_spaces hafterCol (Cursor.rest_advance_of_eq hrest) hindent hend,
    Cursor.advance_append, Nat.zero_max]
  rfl

/-! ## Lines -/

/-- The line break that is put behind a text without one. -/
def lineEnd (text : Text) : Text :=
  if text.getLast?.any isBreak then [] else ['\n']

/-- A text whose last line has a break needs no other one. -/
theorem lineEnd_append {s t : Text} (hne : t ≠ []) : lineEnd (s ++ t) = lineEnd t := by
  rw [lineEnd, lineEnd, List.getLast?_append_of_ne_nil _ hne]

/-- A line needs a break behind it. -/
theorem lineEnd_of_unbroken {line : Text} (h : ∀ c ∈ line, isBreak c = false) :
    lineEnd line = ['\n'] := by
  rw [lineEnd]
  cases hlast : line.getLast? with
  | none => rfl
  | some c => simp [h c (List.mem_of_getLast? hlast)]

/-- Line breaks need no other one. -/
theorem lineEnd_of_breaks {c : Char} {breaks : Text} (h : ∀ d ∈ c :: breaks, isBreak d = true) :
    lineEnd (c :: breaks) = [] := by
  rw [lineEnd, List.getLast?_eq_some_getLast (List.cons_ne_nil c breaks)]
  simp [h _ (List.getLast_mem (List.cons_ne_nil c breaks))]

/-- A block ends at another indentation. -/
theorem blockLines?_of_col {cursor : Cursor} {indent fuel : Nat} {done first more : Text}
    {blank : Bool} (hcol : cursor.col ≠ indent) :
    blockLines? false indent fuel done first more blank cursor =
      some (done, first, more, cursor) := by
  cases fuel with
  | zero => rfl
  | succ fuel => rw [blockLines?, if_pos (.inl hcol)]

/-- The lines of a block begin at their indentation. -/
theorem col_advance_line {breaks : Text} {b : Char} (hbreaks : ∀ c ∈ b :: breaks, isBreak c = true)
    (cursor : Cursor) (line : Text) (n : Nat) :
    (cursor.advance (line ++ (b :: breaks ++ spaces n))).col = n := by
  rw [Cursor.advance_append, Cursor.col_advance_lines hbreaks
    fun c hc => isBreak_of_mem_spaces hc, length_spaces]

section Line

variable {cursor : Cursor} {indent fuel n : Nat} {line breaks done first more rest : Text}
  {b : Char} {blank : Bool} (hline : ∀ c ∈ line, isBreak c = false)
  (hbreaks : ∀ c ∈ b :: breaks, isBreak c = true ∧ isPrintable c = true)
  (hcol : cursor.col = indent)
  (hrest : cursor.rest = line ++ (b :: breaks ++ (spaces n ++ rest)))
include hline hbreaks hcol hrest

/-- One line of a block, with the empty lines after it and the next indentation. -/
theorem blockLines?_line (hindent : Indents indent n rest)
    (hend : ∀ c ∈ rest.head?, isBreak c = false ∧ c ≠ '\t') :
    ∃ blank', blockLines? false indent (fuel + 1) done first more blank cursor =
      blockLines? false indent fuel (done ++ (first ++ more) ++ line) [b] breaks blank'
        (cursor.advance (line ++ (b :: breaks ++ spaces n))) := by
  obtain ⟨hb, hprintable⟩ := hbreaks b List.mem_cons_self
  have hwhile : cursor.rest.takeWhile (!isBreak ·) = line := by
    rw [hrest, List.takeWhile_append_of_pos fun c hc => by simp [hline c hc], List.cons_append,
      List.takeWhile_cons_of_neg (by simp [hb]), List.append_nil]
  have hskip : cursor.skipMany line.length = cursor.advance line :=
    (Cursor.advance_eq_skipMany hline).symm
  have hline := Cursor.rest_advance_of_eq hrest
  have htake := Cursor.takeBreak_eq hline hb hprintable
  have hafter : ((cursor.advance line).advance [b]).rest = breaks ++ (spaces n ++ rest) :=
    Cursor.rest_advance_of_eq hline
  have hplace : cursor.advance (line ++ (b :: breaks ++ spaces n)) =
      ((cursor.advance line).advance [b]).advance (breaks ++ spaces n) := by
    rw [Cursor.advance_append, List.cons_append, Cursor.advance_cons]
  have hread : blockBreaks? indent (((cursor.advance line).advance [b]).rest.length + 1) 0 []
      ((cursor.advance line).advance [b]) =
        some (n, breaks, ((cursor.advance line).advance [b]).advance (breaks ++ spaces n)) := by
    refine blockBreaks?_lines (fun c hc => hbreaks c (List.mem_cons_of_mem _ hc))
      (Cursor.col_advance_break hb) hafter hindent hend ?_
    rw [hafter, List.length_append]
    omega
  have hne : cursor.rest.isEmpty = false := by simp [hrest]
  refine ⟨cursor.next?.any isBlank, ?_⟩
  rw [blockLines?, if_neg (by simp [hcol, hne]), hwhile]
  simp only [hskip, htake, hread]
  rw [hplace]
  simp

/-- The last line of a block. -/
theorem blockLines?_last_line (hhalts : Halts rest) (hindent : n < indent) :
    blockLines? false indent (fuel + 1) done first more blank cursor =
      some (done ++ (first ++ more) ++ line, [b], breaks,
        cursor.advance (line ++ (b :: breaks ++ spaces n))) := by
  have hplace : (cursor.advance (line ++ (b :: breaks ++ spaces n))).col ≠ indent := by
    rw [col_advance_line fun c hc => (hbreaks c hc).1]
    exact hindent.ne
  obtain ⟨blank', hstep⟩ :=
    blockLines?_line hline hbreaks hcol hrest (.of_halts hhalts hindent) hhalts.ne_tab
  rw [hstep, blockLines?_of_col hplace]

end Line

/-- Inside of a line a text begins as it does, whatever comes after it. -/
theorem head?_indented_append (n : Nat) {text : Text} (hne : text ≠ []) (more : Text) :
    (indented n false text ++ more).head? = text.head? := by
  obtain ⟨c, text, rfl⟩ := List.exists_cons_of_ne_nil hne
  rw [List.head?_append, head?_indented]
  rfl

/-- What is printable begins with no tab. -/
theorem ne_tab_of_isPrintable {text : Text} (hprintable : ∀ c ∈ text, isPrintable c = true)
    (hhead : ∀ c ∈ text.head?, isBreak c = false) :
    ∀ c ∈ text.head?, isBreak c = false ∧ c ≠ '\t' := by
  intro c hc
  refine ⟨hhead c hc, ?_⟩
  rintro rfl
  exact absurd (hprintable _ (List.mem_of_mem_head? hc)) (by decide)

/-- A text as lines, each with the line breaks behind it; the last line may have none. -/
inductive Lines : Text → Prop where
  /-- A line without a break. -/
  | unbroken {line : Text} (hne : line ≠ []) (hline : ∀ c ∈ line, isBreak c = false) : Lines line
  /-- A line with breaks at the end of the text. -/
  | broken {line breaks : Text} {b : Char} (hne : line ≠ []) (hline : ∀ c ∈ line, isBreak c = false)
      (hbreaks : ∀ c ∈ b :: breaks, isBreak c = true) : Lines (line ++ b :: breaks)
  /-- A line with breaks before other lines. -/
  | before {line breaks after : Text} {b : Char} (hne : line ≠ [])
      (hline : ∀ c ∈ line, isBreak c = false) (hbreaks : ∀ c ∈ b :: breaks, isBreak c = true)
      (hafter : Lines after) : Lines (line ++ (b :: breaks ++ after))

/-- A text that begins with no line break is made up of lines. -/
theorem lines_of_head? {text : Text} (hne : text ≠ [])
    (hhead : ∀ c ∈ text.head?, isBreak c = false) : Lines text := by
  induction hn : text.length using Nat.strongRecOn generalizing text with
  | ind n ih =>
    obtain ⟨line, later, rfl, hline, hlater⟩ := exists_append_of_test (!isBreak ·) text
    have hline : ∀ c ∈ line, isBreak c = false := fun c hc => by simpa using hline c hc
    cases later with
    | nil =>
      rw [List.append_nil] at hne ⊢
      exact .unbroken hne hline
    | cons b later =>
      have hb : isBreak b = true := by simpa using hlater b rfl
      have hlineNe : line ≠ [] := by
        rintro rfl
        rw [hhead b rfl] at hb
        cases hb
      obtain ⟨breaks, after, rfl, hbreaks, hafter⟩ := exists_append_of_test isBreak later
      have hends : ∀ c ∈ b :: breaks, isBreak c = true := by
        intro c hc
        rcases List.mem_cons.mp hc with rfl | hc
        · exact hb
        · exact hbreaks c hc
      by_cases hnil : after = []
      · rw [hnil, List.append_nil]
        exact .broken hlineNe hline hends
      · rw [List.length_append, List.length_cons, List.length_append] at hn
        exact .before hlineNe hline hends (ih after.length (by omega) hnil hafter rfl)

/-- Lines begin with no line break. -/
theorem Lines.head? {text : Text} (h : Lines text) :
    text ≠ [] ∧ ∀ c ∈ text.head?, isBreak c = false := by
  have hstart {line later : Text} (hne : line ≠ []) (hline : ∀ c ∈ line, isBreak c = false) :
      line ++ later ≠ [] ∧ ∀ c ∈ (line ++ later).head?, isBreak c = false := by
    refine ⟨List.append_ne_nil_of_left_ne_nil hne later, fun c hc => ?_⟩
    rw [List.head?_append_of_ne_nil _ hne] at hc
    exact hline c (List.mem_of_mem_head? hc)
  cases h with
  | unbroken hne hline => exact ⟨hne, fun c hc => hline c (List.mem_of_mem_head? hc)⟩
  | broken hne hline hbreaks => exact hstart hne hline
  | before hne hline hbreaks hafter => exact hstart hne hline

section Written

variable {line breaks : Text} {b : Char} (hline : ∀ c ∈ line, isBreak c = false)
include hline

/-- A line without a break gets one. -/
theorem indented_lineEnd_of_unbroken (n : Nat) :
    indented n false line ++ lineEnd line = line ++ ['\n'] := by
  have hindented : indented n false line = line := by
    rw [← List.append_nil line, indented_append_of_unbroken hline, indented_nil]
  rw [hindented, lineEnd_of_unbroken hline]

/-- A line with breaks at the end of a text is written as it is. -/
theorem indented_lineEnd_of_broken (hbreaks : ∀ c ∈ b :: breaks, isBreak c = true) (n : Nat) :
    indented n false (line ++ b :: breaks) ++ lineEnd (line ++ b :: breaks) =
      line ++ b :: breaks := by
  rw [indented_append_of_unbroken hline, lineEnd_append (List.cons_ne_nil b breaks),
    lineEnd_of_breaks hbreaks, List.append_nil, ← List.append_nil (b :: breaks),
    indented_append_of_breaks hbreaks, indented_nil]

/-- The indentation of other lines stands in front of them. -/
theorem indented_lineEnd_of_before (hbreaks : ∀ c ∈ b :: breaks, isBreak c = true) {after : Text}
    (hafter : Lines after) (n : Nat) :
    indented n false (line ++ (b :: breaks ++ after)) ++ lineEnd (line ++ (b :: breaks ++ after)) =
      line ++ (b :: breaks ++ spaces n) ++ (indented n false after ++ lineEnd after) := by
  obtain ⟨hne, hhead⟩ := hafter.head?
  rw [indented_append_of_unbroken hline, indented_append_of_breaks hbreaks,
    indented_of_line hne hhead, lineEnd_append (by simp), lineEnd_append hne]
  simp only [List.append_assoc]

end Written

/-- The lines of a block are read up to a lesser indentation. -/
theorem blockLines?_eq {text : Text} {cursor : Cursor} {indent fuel k : Nat}
    {done first more rest : Text} {blank : Bool} (htext : Lines text)
    (hprintable : ∀ c ∈ text, isPrintable c = true) (hcol : cursor.col = indent)
    (hrest : cursor.rest = indented indent false text ++ lineEnd text ++ (spaces k ++ rest))
    (hhalts : Halts rest) (hindent : k < indent) (hfuel : text.length < fuel) :
    ∃ done' first' more',
      blockLines? false indent fuel done first more blank cursor =
        some (done', first', more',
          cursor.advance (indented indent false text ++ lineEnd text ++ spaces k)) ∧
      done' ++ (chompingOf text).kept first' more' = done ++ first ++ more ++ text := by
  induction htext generalizing cursor fuel done first more blank with
  | @unbroken line hne hline =>
    obtain ⟨fuel, rfl⟩ : ∃ m, fuel = m + 1 := ⟨fuel - 1, by omega⟩
    rw [indented_lineEnd_of_unbroken hline, List.append_assoc] at hrest ⊢
    have hread : blockLines? false indent (fuel + 1) done first more blank cursor =
        some (done ++ (first ++ more) ++ line, ['\n'], [],
          cursor.advance (line ++ (['\n'] ++ spaces k))) :=
      blockLines?_last_line hline (fun c hc => of_mem_feed hc) hcol hrest hhalts hindent
    refine ⟨_, _, _, hread, ?_⟩
    rw [chompingOf_of_unbroken hline]
    simp [Chomping.kept]
  | @broken line breaks b hne hline hbreaks =>
    obtain ⟨fuel, rfl⟩ : ∃ m, fuel = m + 1 := ⟨fuel - 1, by omega⟩
    have hall : ∀ c ∈ b :: breaks, isBreak c = true ∧ isPrintable c = true := fun c hc =>
      ⟨hbreaks c hc, hprintable c (List.mem_append_right line hc)⟩
    rw [indented_lineEnd_of_broken hline hbreaks, List.append_assoc] at hrest ⊢
    have hread : blockLines? false indent (fuel + 1) done first more blank cursor =
        some (done ++ (first ++ more) ++ line, [b], breaks,
          cursor.advance (line ++ (b :: breaks ++ spaces k))) :=
      blockLines?_last_line hline hall hcol hrest hhalts hindent
    refine ⟨_, _, _, hread, ?_⟩
    rw [chompingOf_line_append hne hline hbreaks]
    split
    · next hempty => simp [Chomping.kept, hempty]
    · simp [Chomping.kept]
  | @before line breaks after b hne hline hbreaks hafter ih =>
    obtain ⟨fuel, rfl⟩ : ∃ m, fuel = m + 1 := ⟨fuel - 1, by omega⟩
    obtain ⟨hafterNe, hafterHead⟩ := hafter.head?
    have hall : ∀ c ∈ b :: breaks, isBreak c = true ∧ isPrintable c = true := fun c hc =>
      ⟨hbreaks c hc, hprintable c (List.mem_append_right line (List.mem_append_left after hc))⟩
    have hafterPrintable : ∀ c ∈ after, isPrintable c = true := fun c hc =>
      hprintable c (List.mem_append_right line (List.mem_append_right (b :: breaks) hc))
    rw [indented_lineEnd_of_before hline hbreaks hafter] at hrest ⊢
    generalize hlater : indented indent false after ++ lineEnd after = later at hrest ih ⊢
    have hend : ∀ c ∈ (later ++ (spaces k ++ rest)).head?, isBreak c = false ∧ c ≠ '\t' := by
      rw [← hlater, List.append_assoc, head?_indented_append indent hafterNe]
      exact ne_tab_of_isPrintable hafterPrintable hafterHead
    simp only [List.append_assoc] at hrest ⊢
    -- The place where the next line begins.
    have hplaceRest : (cursor.advance (line ++ (b :: breaks ++ spaces indent))).rest =
        later ++ (spaces k ++ rest) :=
      Cursor.rest_advance_of_eq (by rw [hrest]; simp only [List.append_assoc])
    have hplaceCol := col_advance_line hbreaks cursor line indent
    generalize hplace : cursor.advance (line ++ (b :: breaks ++ spaces indent)) = place at *
    obtain ⟨blank', hstep⟩ : ∃ blank', blockLines? false indent (fuel + 1) done first more blank
        cursor = blockLines? false indent fuel (done ++ (first ++ more) ++ line) [b] breaks blank'
          place :=
      hplace ▸ blockLines?_line hline hall hcol hrest (.inl ⟨by omega, rfl⟩) hend
    simp only [List.length_append, List.length_cons] at hfuel
    obtain ⟨done', first', more', hread, hkept⟩ : ∃ done' first' more',
        blockLines? false indent fuel (done ++ (first ++ more) ++ line) [b] breaks blank' place =
          some (done', first', more', place.advance (later ++ spaces k)) ∧
        done' ++ (chompingOf after).kept first' more' =
          done ++ (first ++ more) ++ line ++ [b] ++ breaks ++ after :=
      ih hafterPrintable hplaceCol hplaceRest (by omega)
    refine ⟨done', first', more', ?_, ?_⟩
    · rw [hstep, hread, ← hplace, ← Cursor.advance_append]
      simp only [List.append_assoc]
    · rw [← List.append_assoc, chompingOf_append hafterNe hafterHead, hkept]
      simp only [List.append_assoc, List.singleton_append]

/-! ## Whole blocks -/

/-- Whether a block tells its indentation. -/
def hinted (text : Text) : Bool :=
  text.head?.any fun c => isSpace c || isBreak c

/-- The line of the mark of a block. -/
def blockMark (text : Text) : Text :=
  '|' :: ((if hinted text then ['2'] else []) ++ (chompingOf text).letter) ++ ['\n']

/-- A block is its mark and its lines. -/
theorem block_eq (indent : Nat) (text : Text) :
    block indent text = blockMark text ++ indented indent true text := by
  simp only [block, blockMark, hinted, chomping_eq, List.append_assoc, List.cons_append,
    List.nil_append]
  rfl

/-- The lines of a block are read after its mark. -/
theorem block?_of_mark {text lines breaks done first more : Text} {cursor place stop : Cursor}
    {parent n : Nat} (hrest : cursor.rest = blockMark text ++ lines)
    (hbreaks : blockBreaks? (if hinted text then parent + 2 else 0) (lines.length + 1) 0 []
      (cursor.advance (blockMark text)) = some (n, breaks, place))
    (hindent : hinted text = false → n = parent + 2)
    (hlines : blockLines? false (parent + 2) (place.rest.length + 1) [] [] breaks false place =
      some (done, first, more, stop)) :
    block? false (some parent) cursor =
      some (done ++ (chompingOf text).kept first more, stop) := by
  have hmark : (cursor.advance ['|']).rest =
      (if hinted text then ['2'] else []) ++ (chompingOf text).letter ++ '\n' :: lines := by
    refine Cursor.rest_advance_of_eq ?_
    rw [hrest, blockMark]
    simp
  have hheader := header?_eq hmark
  have hend := Cursor.rest_advance_of_eq hmark
  have hplace : cursor.advance (blockMark text) = ((cursor.advance ['|']).advance
      ((if hinted text then ['2'] else []) ++ (chompingOf text).letter)).advance ['\n'] := by
    rw [blockMark, Cursor.advance_append, Cursor.advance_cons cursor '|']
  rw [hplace] at hbreaks
  rw [block?, ← Cursor.advance_singleton (show isBreak '|' = false by decide), hheader]
  generalize (cursor.advance ['|']).advance
    ((if hinted text then ['2'] else []) ++ (chompingOf text).letter) = start at hend hbreaks
  have hblank : start.skipWhile isBlank = start := by
    rw [Cursor.skipWhile, hend]
    rfl
  have hsign : start.sees '#' = false := by
    rw [Cursor.sees, Cursor.next?, hend]
    rfl
  have hbreak : start.lineEnds = true := by
    rw [Cursor.lineEnds, Cursor.next?, hend]
    rfl
  have hskip : start.skipBreak = start.advance ['\n'] := by
    rw [Cursor.skipBreak, Cursor.takeBreak_eq hend (by decide) (by decide)]
  have hgiven :
      ((if hinted text then some 2 else none).map fun n => (some parent).getD 0 + n).getD 0 =
        if hinted text then parent + 2 else 0 := by
    cases hinted text <;> rfl
  have hfound : (if (if hinted text then parent + 2 else 0) = 0 then
      max (max n (((some parent).map (· + 1)).getD 0)) 1
      else if hinted text then parent + 2 else 0) = parent + 2 := by
    cases htext : hinted text with
    | true => rfl
    | false =>
      rw [hindent htext]
      simp
  have hafter : (start.advance ['\n']).rest = lines := Cursor.rest_advance_of_eq hend
  rw [← hafter] at hbreaks
  simp only [Option.bind_eq_bind, Option.bind_some, hblank, hsign, hbreak, hskip, hgiven, hbreaks,
    hfound, hlines, Bool.not_true, Bool.false_eq_true, if_false]
  rfl

/-- Line breaks that were written as a block are read back. -/
theorem block?_of_breaks {b : Char} {breaks rest : Text} {cursor : Cursor} {parent k : Nat}
    (hbreaks : ∀ c ∈ b :: breaks, isBreak c = true ∧ isPrintable c = true)
    (hrest : cursor.rest = block (parent + 2) (b :: breaks) ++ (spaces k ++ rest))
    (hhalts : Halts rest) (hindent : k < parent + 2) :
    block? false (some parent) cursor =
      some (b :: breaks, cursor.advance (block (parent + 2) (b :: breaks) ++ spaces k)) := by
  have hends : ∀ c ∈ b :: breaks, isBreak c = true := fun c hc => (hbreaks c hc).1
  have hhint : hinted (b :: breaks) = true := by
    simp [hinted, hends b List.mem_cons_self]
  have hlines : indented (parent + 2) true (b :: breaks) = b :: breaks := by
    have hnil : indented (parent + 2) true (b :: breaks ++ []) =
        b :: breaks ++ indented (parent + 2) true [] := indented_append_of_breaks hends
    simpa using hnil
  have hstart : (cursor.advance (blockMark (b :: breaks))).col = 0 := by
    rw [blockMark, Cursor.advance_append, Cursor.col_advance_break (by decide)]
  rw [block_eq, hlines] at hrest ⊢
  rw [List.append_assoc] at hrest
  have hread : blockBreaks? (if hinted (b :: breaks) then parent + 2 else 0)
      ((b :: breaks ++ (spaces k ++ rest)).length + 1) 0 []
      (cursor.advance (blockMark (b :: breaks))) = some (k, b :: breaks,
        (cursor.advance (blockMark (b :: breaks))).advance (b :: breaks ++ spaces k)) := by
    rw [hhint]
    refine blockBreaks?_lines hbreaks hstart (Cursor.rest_advance_of_eq hrest)
      (.of_halts hhalts hindent) hhalts.ne_tab ?_
    rw [List.length_append]
    omega
  have hcol : ((cursor.advance (blockMark (b :: breaks))).advance (b :: breaks ++ spaces k)).col ≠
      parent + 2 := by
    rw [Cursor.col_advance_lines hends fun c hc => isBreak_of_mem_spaces hc, length_spaces]
    exact hindent.ne
  rw [block?_of_mark hrest hread (fun hnone => by rw [hhint] at hnone; cases hnone)
    (blockLines?_of_col hcol), chompingOf_of_breaks hends]
  simp [Chomping.kept, Cursor.advance_append]

/-- The indentation of the first line is seen, unless the mark of the block tells it. -/
theorem indents_hinted {breaks lines rest : Text} (hbreaks : ∀ c ∈ breaks, isBreak c = true)
    (hhead : rest.head? = lines.head?) (n : Nat) :
    Indents (if hinted (breaks ++ lines) then n + 1 else 0) (n + 1) rest := by
  cases hhint : hinted (breaks ++ lines) with
  | true => exact .inl ⟨Nat.succ_pos _, rfl⟩
  | false =>
    refine .inr ⟨.inl rfl, fun hspace => ?_⟩
    rw [hhead] at hspace
    cases breaks with
    | nil => simp [hinted, hspace, isSpace] at hhint
    | cons b breaks => simp [hinted, hbreaks b List.mem_cons_self] at hhint

/-- Lines that were written as a block, with line breaks in front of them, are read back. -/
theorem block?_of_lines {breaks lines rest : Text} {cursor : Cursor} {parent k : Nat}
    (hprintable : ∀ c ∈ breaks ++ lines, isPrintable c = true)
    (hbreaks : ∀ c ∈ breaks, isBreak c = true) (hlines : Lines lines)
    (hrest : cursor.rest = blockMark (breaks ++ lines) ++ (breaks ++ (spaces (parent + 2) ++
      (indented (parent + 2) false lines ++ lineEnd lines ++ (spaces k ++ rest)))))
    (hhalts : Halts rest) (hindent : k < parent + 2) :
    block? false (some parent) cursor =
      some (breaks ++ lines, cursor.advance (blockMark (breaks ++ lines) ++ (breaks ++
        (spaces (parent + 2) ++ (indented (parent + 2) false lines ++ lineEnd lines ++
          spaces k))))) := by
  obtain ⟨hne, hlinesHead⟩ := hlines.head?
  have hall : ∀ c ∈ breaks, isBreak c = true ∧ isPrintable c = true := fun c hc =>
    ⟨hbreaks c hc, hprintable c (List.mem_append_left lines hc)⟩
  have hlinesPrintable : ∀ c ∈ lines, isPrintable c = true := fun c hc =>
    hprintable c (List.mem_append_right breaks hc)
  have hstart : (cursor.advance (blockMark (breaks ++ lines))).col = 0 := by
    rw [blockMark, Cursor.advance_append, Cursor.col_advance_break (by decide)]
  have hstartRest := Cursor.rest_advance_of_eq hrest
  generalize hwritten : indented (parent + 2) false lines ++ lineEnd lines = written at *
  have hhead : (written ++ (spaces k ++ rest)).head? = lines.head? := by
    rw [← hwritten, List.append_assoc, head?_indented_append _ hne]
  have hend : ∀ c ∈ (written ++ (spaces k ++ rest)).head?, isBreak c = false ∧ c ≠ '\t' := by
    rw [hhead]
    exact ne_tab_of_isPrintable hlinesPrintable hlinesHead
  have hread : blockBreaks? (if hinted (breaks ++ lines) then parent + 2 else 0)
      ((breaks ++ (spaces (parent + 2) ++ (written ++ (spaces k ++ rest)))).length + 1) 0 []
      (cursor.advance (blockMark (breaks ++ lines))) =
        some (parent + 2, breaks, (cursor.advance (blockMark (breaks ++ lines))).advance
          (breaks ++ spaces (parent + 2))) := by
    refine blockBreaks?_lines hall hstart hstartRest
      (indents_hinted hbreaks hhead (parent + 1)) hend ?_
    rw [List.length_append]
    omega
  generalize hplace : (cursor.advance (blockMark (breaks ++ lines))).advance
    (breaks ++ spaces (parent + 2)) = place at hread
  have hplaceCol : place.col = parent + 2 := by
    rw [← hplace, Cursor.advance_append, Cursor.col_advance fun c hc => isBreak_of_mem_spaces hc,
      Cursor.col_advance_breaks hbreaks hstart, length_spaces, Nat.zero_add]
  have hplaceRest : place.rest = written ++ (spaces k ++ rest) := by
    rw [← hplace]
    exact Cursor.rest_advance_of_eq (hstartRest ▸ by simp)
  have hfuel : lines.length < place.rest.length + 1 := by
    have hlength := length_le_indented (parent + 2) false lines
    rw [hplaceRest, ← hwritten, List.length_append, List.length_append]
    omega
  obtain ⟨done, first, more, hblock, hkept⟩ : ∃ done first more,
      blockLines? false (parent + 2) (place.rest.length + 1) [] [] breaks false place =
        some (done, first, more, place.advance (written ++ spaces k)) ∧
      done ++ (chompingOf lines).kept first more = [] ++ [] ++ breaks ++ lines := by
    subst hwritten
    exact blockLines?_eq hlines hlinesPrintable hplaceCol hplaceRest hhalts hindent hfuel
  rw [block?_of_mark hrest hread (fun _ => rfl) hblock, chompingOf_append hne hlinesHead, hkept,
    ← hplace]
  simp [Cursor.advance_append]

/-- A text that was written as a block is read back. -/
theorem block?_block {text rest : Text} {cursor : Cursor} {parent k : Nat}
    (hprintable : ∀ c ∈ text, isPrintable c = true) (hne : text ≠ [])
    (hrest : cursor.rest = block (parent + 2) text ++ lineEnd text ++ (spaces k ++ rest))
    (hhalts : Halts rest) (hindent : k < parent + 2) :
    block? false (some parent) cursor =
      some (text, cursor.advance (block (parent + 2) text ++ lineEnd text ++ spaces k)) := by
  obtain ⟨breaks, lines, rfl, hbreaks, hlines⟩ := exists_append_of_test isBreak text
  by_cases hnil : lines = []
  · subst hnil
    rw [List.append_nil] at hne hprintable hrest ⊢
    obtain ⟨b, breaks, rfl⟩ := List.exists_cons_of_ne_nil hne
    rw [lineEnd_of_breaks hbreaks, List.append_nil] at hrest ⊢
    exact block?_of_breaks (fun c hc => ⟨hbreaks c hc, hprintable c hc⟩) hrest hhalts hindent
  · rw [block_eq, indented_append hbreaks hnil hlines, lineEnd_append hnil] at hrest ⊢
    simp only [List.append_assoc] at hrest ⊢
    have hread := block?_of_lines hprintable hbreaks (lines_of_head? hnil hlines)
      (by simpa only [List.append_assoc] using hrest) hhalts hindent
    simpa only [List.append_assoc] using hread

end Scalar
end LinkedNotes.Yaml
