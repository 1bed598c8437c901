import LinkedNotes.Text.Edit
import Mathlib.Data.List.Infix
import Mathlib.Data.List.TakeWhile

/-!
# Lines of a document

A line is what stands between two line feeds, and the rest of a document does not matter for it.
Main statement: replacing a part of a line, apart from its end, changes this line alone and leaves
what stands before and after the part. Points inside surrogate pairs are outside this module.
-/

namespace LinkedNotes.Text

/-- Every character takes a column. -/
theorem units_pos (c : Char) : 0 < units c := by
  unfold units
  split <;> omega

/-- Splitting gives at least one piece. -/
theorem splitOn_ne_nil (separator : Char) (text : Text) : splitOn separator text ≠ [] := by
  cases text with
  | nil => simp [splitOn]
  | cons c rest =>
    simp only [splitOn]
    split
    · simp
    · split <;> simp

/-- The pieces around one separator are those before it and those after it. -/
theorem splitOn_append (separator : Char) (before after : Text) :
    splitOn separator (before ++ separator :: after) =
      splitOn separator before ++ splitOn separator after := by
  induction before with
  | nil => simp [splitOn]
  | cons c rest ih =>
    simp only [List.cons_append, splitOn, ih]
    split
    · simp
    · cases hp : splitOn separator rest with
      | nil => exact absurd hp (splitOn_ne_nil separator rest)
      | cons piece pieces => simp

/-- What is no separator in a text is in one of its pieces. -/
theorem exists_mem_splitOn_iff {separator c : Char} (h : c ≠ separator) (text : Text) :
    (∃ piece ∈ splitOn separator text, c ∈ piece) ↔ c ∈ text := by
  induction text with
  | nil => simp [splitOn]
  | cons d rest ih =>
    rw [splitOn, List.mem_cons, ← ih]
    split
    · next hd => simp [hd, h]
    · cases hp : splitOn separator rest with
      | nil => simp
      | cons piece pieces => simp [or_assoc]

/-- A text without the separator is its only piece. -/
theorem splitOn_of_notMem {separator : Char} {text : Text} (h : separator ∉ text) :
    splitOn separator text = [text] := by
  induction text with
  | nil => rfl
  | cons c rest ih =>
    obtain ⟨hc, hrest⟩ := not_or.mp (List.mem_cons.not.mp h)
    simp [splitOn, ih hrest, Ne.symm hc]

/-- No piece has the separator. -/
theorem notMem_of_mem_splitOn {separator : Char} {piece text : Text}
    (h : piece ∈ splitOn separator text) : separator ∉ piece := by
  induction text generalizing piece with
  | nil =>
    rw [splitOn, List.mem_singleton] at h
    subst h
    exact List.not_mem_nil
  | cons c rest ih =>
    rw [splitOn] at h
    split at h
    · rcases List.mem_cons.mp h with rfl | h
      · exact List.not_mem_nil
      · exact ih h
    · next hc =>
      cases hp : splitOn separator rest with
      | nil => exact absurd hp (splitOn_ne_nil separator rest)
      | cons first more =>
        rw [hp] at h ih
        rcases List.mem_cons.mp h with rfl | h
        · have hfirst := ih List.mem_cons_self
          simpa [Ne.symm hc] using hfirst
        · exact ih (List.mem_cons_of_mem first h)

/-- The first piece ends before the first separator. -/
theorem splitOn_getElem?_zero (separator : Char) (text : Text) :
    (splitOn separator text)[0]? = some (text.takeWhile (· ≠ separator)) := by
  induction text with
  | nil => rfl
  | cons c rest ih =>
    simp only [splitOn]
    by_cases hc : c = separator
    · simp [hc]
    · cases hp : splitOn separator rest with
      | nil => exact absurd hp (splitOn_ne_nil separator rest)
      | cons piece pieces =>
        rw [hp] at ih
        simpa [hc] using ih

/-- A line starts after as many line feeds as its number says. -/
theorem splitOn_getElem? (text : Text) (n : Nat) :
    (splitOn '\n' text)[n]? = (afterFeeds n text).map (·.takeWhile (· ≠ '\n')) := by
  induction text generalizing n with
  | nil => cases n <;> simp [splitOn, afterFeeds]
  | cons c rest ih =>
    cases n with
    | zero => simpa [afterFeeds] using splitOn_getElem?_zero '\n' (c :: rest)
    | succ n =>
      simp only [splitOn, afterFeeds]
      split
      · simpa using ih n
      · cases hp : splitOn '\n' rest with
        | nil => exact absurd hp (splitOn_ne_nil '\n' rest)
        | cons piece pieces => simpa [hp] using ih (n + 1)

/-- A line of a document, found by counting line feeds. -/
theorem lineAt?_eq (text : Text) (n : Nat) :
    lineAt? text n =
      (afterFeeds n text).map fun rest => dropReturn (rest.takeWhile (· ≠ '\n')) := by
  simp [lineAt?, splitOn_getElem?, Function.comp_def]

/-- What stands before a line decides where the line starts, whatever follows. -/
theorem exists_head_of_afterFeeds {n : Nat} {text rest : Text}
    (h : afterFeeds n text = some rest) :
    ∃ head, text = head ++ rest ∧ ∀ other, afterFeeds n (head ++ other) = some other := by
  induction text generalizing n with
  | nil =>
    cases n with
    | zero => exact ⟨[], by simpa [afterFeeds] using h, fun other => by simp [afterFeeds]⟩
    | succ n => simp [afterFeeds] at h
  | cons c tail ih =>
    cases n with
    | zero => exact ⟨[], by simpa [afterFeeds] using h, fun other => by simp [afterFeeds]⟩
    | succ n =>
      simp only [afterFeeds] at h
      split at h
      · next hc =>
        obtain ⟨head, htext, hother⟩ := ih h
        exact ⟨c :: head, by simp [htext], fun other => by simp [afterFeeds, hc, hother]⟩
      · next hc =>
        obtain ⟨head, htext, hother⟩ := ih h
        exact ⟨c :: head, by simp [htext], fun other => by simp [afterFeeds, hc, hother]⟩

/-- The column after a part of a line names the place after this part. -/
theorem cutInLine_width {part : Text} (h : '\n' ∉ part) (rest : Text) :
    cutInLine (width part) (part ++ rest) = (part, rest) := by
  induction part with
  | nil => cases rest <;> simp [width, cutInLine]
  | cons c part ih =>
    obtain ⟨hc, hpart⟩ := not_or.mp (List.mem_cons.not.mp h)
    obtain ⟨n, hn⟩ : ∃ n, width (c :: part) = n + 1 :=
      ⟨units c + width part - 1, by have := units_pos c; simp only [width]; omega⟩
    have hw : n + 1 - units c = width part := by
      simp only [width] at hn
      omega
    simp [hn, cutInLine, Ne.symm hc, hw, ih hpart]

/-- The column after a part of a line names the place after this part, also without line feeds
being looked at. -/
theorem cutAtCol_width (part rest : Text) :
    cutAtCol (width part) (part ++ rest) = (part, rest) := by
  induction part with
  | nil => cases rest <;> simp [width, cutAtCol]
  | cons c part ih =>
    obtain ⟨n, hn⟩ : ∃ n, width (c :: part) = n + 1 :=
      ⟨units c + width part - 1, by have := units_pos c; simp only [width]; omega⟩
    have hw : n + 1 - units c = width part := by
      simp only [width] at hn
      omega
    simp [hn, cutAtCol, hw, ih]

/-- A column names the place after a character of one unit exactly, unless it is past the end. -/
theorem width_eq_of_cutAtCol {line before after : Text} {c : Char} {col : Nat}
    (h : cutAtCol col line = (before ++ [c], after)) (hc : units c = 1) (hafter : after ≠ []) :
    width (before ++ [c]) = col := by
  induction line generalizing col before with
  | nil => simp [cutAtCol] at h
  | cons d rest ih =>
    cases col with
    | zero => simp [cutAtCol] at h
    | succ col =>
      simp only [cutAtCol, Prod.mk.injEq] at h
      obtain ⟨hbefore, hrest⟩ := h
      -- Only a character of two units can reach past the column, and no cut is made inside it.
      cases before with
      | nil =>
        obtain ⟨rfl, hnil⟩ := by simpa using hbefore
        have hcol : col = 0 := by
          cases col with
          | zero => rfl
          | succ col =>
            cases rest with
            | nil => simp [cutAtCol, ← hrest] at hafter
            | cons e rest => simp [hc, cutAtCol] at hnil
        simp [width, hc, hcol]
      | cons e before =>
        obtain ⟨rfl, hmore⟩ := by simpa using hbefore
        have hlt : units d < col + 1 := by
          by_contra hge
          have hzero : col + 1 - units d = 0 := by omega
          rw [hzero] at hmore
          cases rest <;> simp [cutAtCol] at hmore
        have hcut : cutAtCol (col + 1 - units d) rest = (before ++ [c], after) :=
          Prod.ext hmore hrest
        have := ih hcut
        simp only [List.cons_append, width, this]
        omega

/-- The offset after a part of a text names the place after this part. -/
theorem cutAtOffset_size (part rest : Text) :
    cutAtOffset (size part) (part ++ rest) = (part, rest) := by
  induction part with
  | nil =>
    cases rest with
    | nil => rfl
    | cons c rest =>
      have hc := Char.utf8Size_pos c
      simp [size, cutAtOffset]
      omega
  | cons c part ih => simp [size, cutAtOffset, ih]

/-- The offset of the place after a part of a line. -/
theorem pointToOffset?_onLine {head : Text} {n : Nat}
    (hhead : ∀ other, afterFeeds n (head ++ other) = some other)
    {part : Text} (hpart : '\n' ∉ part) (rest : Text) :
    pointToOffset? (head ++ (part ++ rest)) ⟨n, width part⟩ = some (size (head ++ part)) := by
  simp [pointToOffset?, hhead, cutInLine_width hpart]

/-- A carriage return is only dropped at the end. -/
theorem dropReturn_append {before after : Text} (h : after ≠ []) :
    dropReturn (before ++ after) = before ++ dropReturn after := by
  have hlast : (before ++ after).getLast? = after.getLast? := by
    rw [List.getLast?_append_of_ne_nil _ h]
  simp only [dropReturn, hlast]
  split
  · rw [List.dropLast_append_of_ne_nil h]
  · rfl

/-- A line without its terminator splits like the line with it, apart from its end. -/
theorem exists_of_dropReturn_eq_append {line before after : Text} (h : after ≠ [])
    (hline : dropReturn line = before ++ after) :
    ∃ ending, line = before ++ ending ∧ ending ≠ [] ∧ dropReturn ending = after := by
  have hending : ∃ ending, line = before ++ ending ∧ ending ≠ [] := by
    unfold dropReturn at hline
    split at hline
    · next hr =>
      obtain ⟨init, rfl⟩ := List.getLast?_eq_some_iff.mp hr
      rw [List.dropLast_concat] at hline
      exact ⟨after ++ ['\r'], by simp [hline], by simp⟩
    · exact ⟨after, hline, h⟩
  obtain ⟨ending, rfl, hne⟩ := hending
  rw [dropReturn_append hne] at hline
  exact ⟨ending, rfl, hne, List.append_cancel_left hline⟩

/-- What stands before the first line feed of a text holds no line feed. -/
theorem notMem_takeWhile_feed (text : Text) : '\n' ∉ text.takeWhile (· ≠ '\n') := fun hmem => by
  have hfeed := List.mem_takeWhile_imp hmem
  simp at hfeed

/-- A line holds no line feed. -/
theorem notMem_of_lineAt? {text line : Text} {n : Nat} (h : lineAt? text n = some line) :
    '\n' ∉ line := by
  rw [lineAt?_eq] at h
  obtain ⟨rest, -, rfl⟩ := Option.map_eq_some_iff.mp h
  intro hmem
  have hraw : '\n' ∈ rest.takeWhile (· ≠ '\n') := by
    unfold dropReturn at hmem
    split at hmem
    · exact List.mem_of_mem_dropLast hmem
    · exact hmem
  exact notMem_takeWhile_feed rest hraw

end LinkedNotes.Text

namespace LinkedNotes.ContentChange

open Text

/-- Replacing a part of a line keeps what stands before and after the part. -/
theorem apply_onLine {head before part : Text} {n : Nat}
    (hhead : ∀ other, afterFeeds n (head ++ other) = some other)
    (hbefore : '\n' ∉ before) (hpart : '\n' ∉ part) (rest new : Text) :
    (apply (head ++ (before ++ (part ++ rest)))
      ⟨some (.onLine n (width before) (width before + width part)), new⟩).1 =
        head ++ (before ++ (new ++ rest)) := by
  have hstart := pointToOffset?_onLine hhead hbefore (part ++ rest)
  have hboth : '\n' ∉ before ++ part := by simp [hbefore, hpart]
  have hstop := pointToOffset?_onLine hhead hboth rest
  rw [width_append, List.append_assoc] at hstop
  have hle : size (head ++ before) ≤ size (head ++ (before ++ part)) := by
    simp only [size_append]
    omega
  have hfirst := cutAtOffset_size (head ++ before) (part ++ rest)
  have hsecond := cutAtOffset_size (head ++ (before ++ part)) rest
  simp only [List.append_assoc] at hfirst hsecond
  simp only [apply, TextRange.onLine, hstart, hstop, Option.getD_some, Nat.min_eq_left hle,
    Nat.max_eq_right hle, hfirst, hsecond, List.append_assoc]

/-- Replacing a part of a line by a text on one line gives the same line with the new part, unless
the part reaches to the end, where a carriage return could join the terminator. -/
theorem lineAt?_apply {document before part after new : Text} {n : Nat}
    (hline : lineAt? document n = some (before ++ part ++ after)) (hafter : after ≠ [])
    (hnew : '\n' ∉ new) :
    lineAt? (apply document
      ⟨some (.onLine n (width before) (width before + width part)), new⟩).1 n =
        some (before ++ new ++ after) := by
  have hfeed := notMem_of_lineAt? hline
  have hbefore : '\n' ∉ before := fun h => hfeed (by simp [h])
  have hpart : '\n' ∉ part := fun h => hfeed (by simp [h])
  rw [lineAt?_eq] at hline
  obtain ⟨rest, hrest, hraw⟩ := Option.map_eq_some_iff.mp hline
  obtain ⟨head, rfl, hhead⟩ := exists_head_of_afterFeeds hrest
  obtain ⟨ending, hending, hne, hdrop⟩ := exists_of_dropReturn_eq_append hafter hraw
  have hfree : ∀ c ∈ ending, c ≠ '\n' := fun c hc => by
    have hmem : c ∈ rest.takeWhile (· ≠ '\n') := by
      rw [hending]
      simp [hc]
    simpa using List.mem_takeWhile_imp hmem
  obtain ⟨tail, htail, hstop⟩ : ∃ tail, rest = before ++ part ++ ending ++ tail ∧
      tail.takeWhile (· ≠ '\n') = [] := by
    refine ⟨rest.dropWhile (· ≠ '\n'), ?_, ?_⟩
    · rw [← hending, List.takeWhile_append_dropWhile]
    · rw [List.takeWhile_eq_nil_iff]
      exact List.dropWhile_get_zero_not _ _
  rw [htail, List.append_assoc, List.append_assoc, apply_onLine hhead hbefore hpart, lineAt?_eq,
    hhead]
  have hnewline : (before ++ (new ++ (ending ++ tail))).takeWhile (· ≠ '\n') =
      before ++ new ++ ending := by
    rw [← List.append_assoc, ← List.append_assoc, List.takeWhile_append_of_pos, hstop,
      List.append_nil]
    intro c hc
    rcases List.mem_append.mp hc with hc | hc
    · rcases List.mem_append.mp hc with hc | hc
      · simpa using fun h : c = '\n' => hbefore (h ▸ hc)
      · simpa using fun h : c = '\n' => hnew (h ▸ hc)
    · simpa using hfree c hc
  rw [Option.map_some, hnewline, dropReturn_append hne, hdrop]

end LinkedNotes.ContentChange
