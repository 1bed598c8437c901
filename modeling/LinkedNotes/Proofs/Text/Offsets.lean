import LinkedNotes.Proofs.Text.Columns
import LinkedNotes.Proofs.Text.Undo

/-!
# Offsets of the points of a document

An editor names places of a document by points, and the document is cut at octet offsets. Main
statements: the offset of a point never decreases from a point to a later one, stands between two
characters, and is given back for the point of every place; and it is the offset of the column in
the line of the point, counted from the start of the line, unless the column is past a carriage
return that ends the line. How large the numbers may be is outside this module.
-/

namespace LinkedNotes

namespace Text

/-! ## Where lines start -/

/-- The rest of a text behind some line feeds is a part of the text. -/
theorem size_le_of_afterFeeds {n : Nat} {text rest : Text} (h : afterFeeds n text = some rest) :
    size rest ≤ size text := by
  obtain ⟨head, rfl, -⟩ := exists_head_of_afterFeeds h
  rw [size_append]
  exact Nat.le_add_left (size rest) (size head)

/-- A line starts where the rest of the text behind as many line feeds starts. -/
theorem lineStartsFrom_getElem? (offset : Nat) (text : Text) (n : Nat) :
    (offset :: lineStartsFrom offset text)[n]? =
      (afterFeeds n text).map fun rest => offset + (size text - size rest) := by
  induction text generalizing offset n with
  | nil => cases n <;> simp [lineStartsFrom, afterFeeds]
  | cons c rest ih =>
    cases n with
    | zero => simp [afterFeeds]
    | succ n =>
      by_cases hc : c = '\n'
      · subst hc
        have hfeed : Char.utf8Size '\n' = 1 := by decide
        rw [List.getElem?_cons_succ, lineStartsFrom, if_pos rfl, ih, afterFeeds, if_pos rfl]
        refine Option.map_congr fun below hbelow => ?_
        have hle := size_le_of_afterFeeds hbelow
        rw [size, hfeed]
        omega
      · have hnext := ih (offset + c.utf8Size) (n + 1)
        rw [List.getElem?_cons_succ] at hnext ⊢
        rw [lineStartsFrom, if_neg hc, hnext, afterFeeds, if_neg hc]
        refine Option.map_congr fun below hbelow => ?_
        have hle := size_le_of_afterFeeds hbelow
        rw [size]
        omega

/-- The start of a line of a document. -/
theorem lineStarts_getElem? (text : Text) (n : Nat) :
    (lineStarts text)[n]? = (afterFeeds n text).map fun rest => size text - size rest := by
  simpa only [lineStarts, Nat.zero_add] using lineStartsFrom_getElem? 0 text n

/-- The offset of a point is found in the text behind the start of its line. -/
theorem pointToOffset?_eq (text : Text) (point : Point) :
    pointToOffset? text point = (lineStarts text)[point.line]?.map fun start =>
      start + size (cutInLine point.col (cutAtOffset start text).2).1 := by
  rw [pointToOffset?, lineStarts_getElem?, Option.map_map]
  refine Option.map_congr fun rest hrest => ?_
  obtain ⟨head, rfl, -⟩ := exists_head_of_afterFeeds hrest
  rw [Function.comp_apply, size_append, Nat.add_sub_cancel, cutAtOffset_size]

/-! ## Points and columns -/

/-- In the first line of a text a column is counted as in this line alone. -/
theorem cutInLine_eq_cutAtCol (col : Nat) (text : Text) :
    (cutInLine col text).1 = (cutAtCol col (text.takeWhile (· ≠ '\n'))).1 := by
  induction text generalizing col with
  | nil => rfl
  | cons c rest ih =>
    cases col with
    | zero => cases (c :: rest).takeWhile (· ≠ '\n') <;> rfl
    | succ col =>
      by_cases hc : c = '\n'
      · simp [cutInLine, cutAtCol, hc]
      · simp [cutInLine, cutAtCol, hc, ih]

/-- Whether a line of a document ends in a carriage return, which belongs to its terminator. -/
def EndsInReturn (text : Text) (row : Nat) : Prop :=
  ∃ line, (splitOn '\n' text)[row]? = some (line ++ ['\r'])

/-- A line is what stands between line feeds, apart from a carriage return at its end. -/
theorem eq_or_of_dropReturn_eq {text line raw : Text} {row : Nat}
    (hraw : (splitOn '\n' text)[row]? = some raw) (h : dropReturn raw = line) :
    (EndsInReturn text row ∧ raw = line ++ ['\r']) ∨ (¬EndsInReturn text row ∧ raw = line) := by
  by_cases hlast : raw.getLast? = some '\r'
  · obtain ⟨init, rfl⟩ := List.getLast?_eq_some_iff.mp hlast
    rw [dropReturn, if_pos hlast, List.dropLast_concat] at h
    subst h
    exact .inl ⟨⟨init, hraw⟩, rfl⟩
  · rw [dropReturn, if_neg hlast] at h
    refine .inr ⟨?_, h⟩
    rintro ⟨init, hinit⟩
    obtain rfl : raw = init ++ ['\r'] := Option.some.inj (hraw.symm.trans hinit)
    exact hlast List.getLast?_concat

/-- The offset of a point is that of its column in its line, counted from the start of the line, up
to the end of the line. Past the end of a line that ends in a carriage return, and only there, it is
one octet further on, behind the carriage return. -/
theorem pointToOffset?_eq_iff {text line : Text} {point : Point}
    (h : lineAt? text point.line = some line) :
    ∃ start, (lineStarts text)[point.line]? = some start ∧
      (pointToOffset? text point = some (start + colToOffset line point.col) ↔
        (EndsInReturn text point.line → point.col ≤ width line)) ∧
      (width line ≤ point.col → colToOffset line point.col = size line) ∧
      (EndsInReturn text point.line → width line < point.col →
        pointToOffset? text point = some (start + size line + 1)) := by
  rw [lineAt?_eq] at h
  obtain ⟨rest, hrest, hline⟩ := Option.map_eq_some_iff.mp h
  obtain ⟨raw, hraw⟩ : ∃ raw, raw = rest.takeWhile (· ≠ '\n') := ⟨_, rfl⟩
  have hpiece : (splitOn '\n' text)[point.line]? = some raw := by
    rw [splitOn_getElem?, hrest, Option.map_some, hraw]
  have hoffset : pointToOffset? text point =
      some (size text - size rest + colToOffset raw point.col) := by
    rw [pointToOffset?, hrest, Option.map_some, cutInLine_eq_cutAtCol, ← hraw, colToOffset]
  have hend : width line ≤ point.col → colToOffset line point.col = size line := fun hcol => by
    rw [colToOffset, cutAtCol_of_width_le hcol]
  refine ⟨size text - size rest, by rw [lineStarts_getElem?, hrest, Option.map_some], ?_⟩
  rw [← hraw] at hline
  rcases eq_or_of_dropReturn_eq hpiece hline with ⟨hreturn, rfl⟩ | ⟨hnone, rfl⟩
  · have hinside : point.col ≤ width line →
        colToOffset (line ++ ['\r']) point.col = colToOffset line point.col := fun hcol => by
      rw [colToOffset, cutAtCol_append_of_le hcol, colToOffset]
    have hpast : width line < point.col →
        colToOffset (line ++ ['\r']) point.col = size line + 1 := fun hcol => by
      have hwidth : width (line ++ ['\r']) ≤ point.col := by
        rw [width_append]
        exact hcol
      rw [colToOffset, cutAtCol_of_width_le hwidth, size_append]
      rfl
    refine ⟨⟨fun heq _ => ?_, fun hle => ?_⟩, hend, fun _ hcol => ?_⟩
    · by_contra hnot
      have hcol : width line < point.col := Nat.lt_of_not_le hnot
      rw [hoffset, Option.some_inj, hpast hcol, hend hcol.le] at heq
      omega
    · rw [hoffset, hinside (hle hreturn)]
    · rw [hoffset, hpast hcol, Nat.add_assoc]
  · exact ⟨⟨fun _ hreturn => absurd hreturn hnone, fun _ => hoffset⟩, hend,
      fun hreturn => absurd hreturn hnone⟩

/-- Both cases on two lines: inside a surrogate pair of the second line, and past the end of the
first. -/
theorem pointToOffset?_eq_iff_two_lines :
    let text := "é\r\n😀b".toList
    lineAt? text 1 = some "😀b".toList ∧
      pointToOffset? text ⟨1, 1⟩ = some (4 + colToOffset "😀b".toList 1) ∧
      lineAt? text 0 = some "é".toList ∧ pointToOffset? text ⟨0, 2⟩ = some 3 := by
  intro text
  have hsecond : lineAt? text 1 = some "😀b".toList := by decide
  have hfirst : lineAt? text 0 = some "é".toList := by decide
  have hends : EndsInReturn text 0 := ⟨"é".toList, by decide⟩
  have hplain : ¬EndsInReturn text 1 := by
    rintro ⟨line, hline⟩
    have hlast : (splitOn '\n' text)[1]?.bind List.getLast? = some 'b' := by decide
    rw [hline, Option.bind_some, List.getLast?_concat] at hlast
    exact absurd hlast (by decide)
  obtain ⟨start, hstart, hiff, -, -⟩ := @pointToOffset?_eq_iff text "😀b".toList ⟨1, 1⟩ hsecond
  obtain ⟨origin, horigin, -, -, hpast⟩ := @pointToOffset?_eq_iff text "é".toList ⟨0, 2⟩ hfirst
  have hstarts : lineStarts text = [0, 4] := by decide
  obtain rfl : 4 = start := by simpa [hstarts] using hstart
  obtain rfl : 0 = origin := by simpa [hstarts] using horigin
  exact ⟨hsecond, hiff.mpr fun hreturn => absurd hreturn hplain, hfirst, hpast hends (by decide)⟩

/-- Past the end of a line before a carriage return the offset of a point and that of its column
differ. -/
theorem pointToOffset?_ne_before_return :
    ¬∀ (text line : Text) (point : Point) (start : Nat), lineAt? text point.line = some line →
      (lineStarts text)[point.line]? = some start →
        pointToOffset? text point = some (start + colToOffset line point.col) := by
  intro h
  have hsame := h "a\r\nb".toList "a".toList ⟨0, 5⟩ 0 (by decide) (by decide)
  exact absurd hsame (by decide)

/-! ## Points of a document in order -/

/-- The offset of a point is that of a place. -/
theorem exists_startsText_of_pointToOffset? {text : Text} {point : Point} {offset : Nat}
    (h : pointToOffset? text point = some offset) :
    ∃ before, before <+: text ∧ offset = size before := by
  obtain ⟨rest, hrest, -⟩ := Option.map_eq_some_iff.mp h
  obtain ⟨head, htext, hoffset⟩ := exists_pointToOffset?_of_afterFeeds hrest point.col
  refine ⟨head ++ (cutInLine point.col rest).1, ⟨(cutInLine point.col rest).2, ?_⟩, ?_⟩
  · rw [List.append_assoc, cutInLine_append, htext]
  · exact Option.some.inj (h.symm.trans hoffset)

end Text
end LinkedNotes
