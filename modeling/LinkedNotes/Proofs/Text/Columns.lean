import LinkedNotes.Proofs.Text.Lines
import LinkedNotes.Text.Stored
import Mathlib.Order.Bounds.Basic

/-!
# Columns and octets of a line

Columns and octet offsets name places between two characters of a line, each in its own units. A
column may also fall inside a surrogate pair or past the end, and then it names the next place that
there is. Main statement: a cut at the offset of a place is one at its column, and the place of a
column is the first one that reaches the column. Offsets inside a character are outside this module.
-/

namespace LinkedNotes.Text

/-! ## Cuts at offsets -/

/-- The offset behind a part of a text cuts there. -/
theorem cutAtOctet?_size (before after : Text) :
    cutAtOctet? (before ++ after) (size before) = some (before, after) := by
  induction before with
  | nil => cases after <;> rfl
  | cons c before ih =>
    obtain ⟨offset, hoffset⟩ : ∃ offset, size (c :: before) = offset + 1 :=
      ⟨c.utf8Size + size before - 1, by have := c.utf8Size_pos; simp only [size]; omega⟩
    have hnot : ¬offset + 1 < c.utf8Size := by
      rw [← hoffset, size]
      omega
    have hrest : offset + 1 - c.utf8Size = size before := by
      rw [← hoffset, size, Nat.add_sub_cancel_left]
    rw [hoffset, List.cons_append, cutAtOctet?, if_neg hnot, hrest, ih, Option.map_some]

/-- A column is counted up to the cut at an offset. -/
theorem offsetToCol?_eq (line : Text) (offset : Nat) :
    offsetToCol? line offset = (cutAtOctet? line offset).map (width ·.1) := by
  induction line generalizing offset with
  | nil => cases offset <;> rfl
  | cons c rest ih =>
    cases offset with
    | zero => rfl
    | succ offset =>
      rw [offsetToCol?, cutAtOctet?]
      split
      · rfl
      · rw [ih, Option.map_map, Option.map_map]
        rfl

/-- The column behind a part of a line, from the offset there. -/
theorem offsetToCol?_size (before after : Text) :
    offsetToCol? (before ++ after) (size before) = some (width before) := by
  rw [offsetToCol?_eq, cutAtOctet?_size, Option.map_some]

/-- The offsets around a part of a text give this part. -/
theorem between?_size (before part after : Text) :
    between? (before ++ part ++ after) (size before) (size (before ++ part)) = some part := by
  simp only [between?, cutAtOctet?_size, Option.bind_eq_bind, Option.bind_some]
  rfl

/-- The offset of a column cuts the line where the column does. -/
theorem cutAtOctet?_colToOffset (line : Text) (col : Nat) :
    cutAtOctet? line (colToOffset line col) = some (cutAtCol col line) := by
  have hcut := cutAtOctet?_size (cutAtCol col line).1 (cutAtCol col line).2
  rwa [cutAtCol_append] at hcut

/-! ## Cuts at columns -/

/-- What stands before a place has no more columns than the line. -/
theorem width_le_of_startsLine {before line : Text} (h : before <+: line) :
    width before ≤ width line := by
  obtain ⟨after, rfl⟩ := h
  rw [width_append]
  exact Nat.le_add_right (width before) (width after)

/-- A start of a text has no more octets than the text. -/
theorem size_le_of_startsText {before text : Text} (h : before <+: text) :
    size before ≤ size text := by
  obtain ⟨after, rfl⟩ := h
  rw [size_append]
  exact Nat.le_add_right (size before) (size after)

/-- A cut at a column leaves a start of the line. -/
theorem cutAtCol_startsLine (col : Nat) (line : Text) : (cutAtCol col line).1 <+: line :=
  ⟨(cutAtCol col line).2, cutAtCol_append col line⟩

/-- A column up to the end of a line names the same place when more follows the line. -/
theorem cutAtCol_append_of_le {line : Text} {col : Nat} (h : col ≤ width line) (more : Text) :
    (cutAtCol col (line ++ more)).1 = (cutAtCol col line).1 := by
  induction line generalizing col with
  | nil =>
    obtain rfl : col = 0 := Nat.le_zero.mp h
    cases more <;> rfl
  | cons c rest ih =>
    cases col with
    | zero => rfl
    | succ col =>
      have hrest : col + 1 - units c ≤ width rest := by
        rw [width] at h
        omega
      simp only [List.cons_append, cutAtCol, ih hrest]

/-- A column at or past the end of a line names its end. -/
theorem cutAtCol_of_width_le {line : Text} {col : Nat} (h : width line ≤ col) :
    (cutAtCol col line).1 = line := by
  induction line generalizing col with
  | nil => rfl
  | cons c rest ih =>
    have hunits := units_pos c
    rw [width] at h
    cases col with
    | zero => omega
    | succ col =>
      have hrest : width rest ≤ col + 1 - units c := by omega
      simp only [cutAtCol, ih hrest]

end LinkedNotes.Text
