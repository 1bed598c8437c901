import LinkedNotes.Proofs.Text.Offsets

/-!
# Places that fit into words

The places of a stored text are counted in words of 32 bits. Main statements: where the numbers of a
place are words, no step of the counting fails and it gives these words; so the columns of a line,
and the points of a document, name the same places as its octet offsets. Each column but the last
one names such a place on every line, and all of them do in a document of less than four gibibytes.
What is counted where the numbers are no words is outside this module.
-/

namespace LinkedNotes

namespace Text

/-- Whether the columns of a line of a document fit into words, up to its line feed. -/
def RowFits (text : Text) (row : Nat) : Prop :=
  ∀ line, (splitOn '\n' text)[row]? = some line → width line < UInt32.size

/-- Whether the lines and the columns of a document fit into words. -/
structure Fits (text : Text) : Prop where
  /-- Its lines can be numbered by words. -/
  lines : (splitOn '\n' text).length ≤ UInt32.size
  /-- So can the columns of each line. -/
  rows : ∀ row, RowFits text row

end Text

namespace Stored

open Text

/-! ## Words -/

/-- The number of a word that a small number is cut down to. -/
theorem toNat_ofNat {n : Nat} (h : n < UInt32.size) : (UInt32.ofNat n).toNat = n :=
  UInt32.toNat_ofNat_of_lt h

/-- A sum of words is the word of the sum. -/
theorem plus?_eq_some_iff {n m sum : UInt32} :
    plus? n m = some sum ↔ n.toNat + m.toNat = sum.toNat := by
  unfold plus?
  constructor
  · intro h
    split at h
    · next hlt =>
      rw [← Option.some.inj h, UInt32.toNat_add, Nat.mod_eq_of_lt hlt]
    · cases h
  · intro h
    have hlt : n.toNat + m.toNat < UInt32.size := h ▸ sum.toNat_lt
    rw [if_pos hlt, Option.some_inj, ← UInt32.toNat_inj, UInt32.toNat_add, Nat.mod_eq_of_lt hlt, h]

/-- A difference of words is the word of the difference. -/
theorem minus?_eq_some_iff {n m difference : UInt32} :
    minus? n m = some difference ↔ m.toNat + difference.toNat = n.toNat := by
  unfold minus?
  constructor
  · intro h
    split at h
    · next hle =>
      have hnat := UInt32.le_iff_toNat_le.mp hle
      rw [← Option.some.inj h, UInt32.toNat_sub_of_le n m hle]
      omega
    · cases h
  · intro h
    have hle : m ≤ n := UInt32.le_iff_toNat_le.mpr (by omega)
    rw [if_pos hle, Option.some_inj, ← UInt32.toNat_inj, UInt32.toNat_sub_of_le n m hle]
    omega

/-- Words name the same point only if they are the same. -/
theorem Point.toPoint_inj {point other : Point} :
    point.toPoint = other.toPoint ↔ point = other := by
  constructor
  · intro h
    obtain ⟨hline, hcol⟩ := LinkedNotes.Point.mk.inj h
    obtain ⟨line, col⟩ := point
    obtain ⟨line', col'⟩ := other
    rw [UInt32.toNat_inj] at hline hcol
    subst hline hcol
    rfl
  · exact congrArg _

/-- A point with small numbers is named by their words. -/
theorem Point.toPoint_ofPoint {point : LinkedNotes.Point} (hline : point.line < UInt32.size)
    (hcol : point.col < UInt32.size) : (Point.ofPoint point).toPoint = point := by
  rw [toPoint, ofPoint, toNat_ofNat hline, toNat_ofNat hcol]

/-! ## Columns -/

/-- The search for a column counts up to the place of the column, as far as it is not ended before.
No count fails if the last one is a word. -/
theorem reach?_eq {ends : Char → Bool} {col current : UInt32} {text : Text}
    (h : current.toNat + width (cutAtCol (col.toNat - current.toNat)
      (text.takeWhile (!ends ·))).1 < UInt32.size) :
    reach? ends col current text =
      some (size (cutAtCol (col.toNat - current.toNat) (text.takeWhile (!ends ·))).1) := by
  induction text generalizing current with
  | nil => rfl
  | cons c rest ih =>
    by_cases hcol : col ≤ current
    · have hzero : col.toNat - current.toNat = 0 :=
        Nat.sub_eq_zero_of_le (UInt32.le_iff_toNat_le.mp hcol)
      have hnothing : (cutAtCol 0 ((c :: rest).takeWhile (!ends ·))).1 = [] :=
        congrArg (·.1) (cutAtCol_width [] _)
      rw [reach?, decide_eq_true hcol, Bool.true_or, if_pos rfl, hzero, hnothing]
      rfl
    · have hlt : current.toNat < col.toNat :=
        Nat.lt_of_not_le fun hle => hcol (UInt32.le_iff_toNat_le.mpr hle)
      cases hends : ends c with
      | true => simp [reach?, hends, cutAtCol, size]
      | false =>
        have htake : (c :: rest).takeWhile (!ends ·) = c :: rest.takeWhile (!ends ·) :=
          List.takeWhile_cons_of_pos (by rw [hends]; rfl)
        obtain ⟨more, hmore⟩ : ∃ more, col.toNat - current.toNat = more + 1 :=
          ⟨col.toNat - current.toNat - 1, by omega⟩
        rw [htake, hmore, cutAtCol, width] at h
        have hunits : (UInt32.ofNat (units c)).toNat = units c := toNat_ofNat (by omega)
        obtain ⟨next, hnext⟩ : ∃ next : UInt32, next.toNat = current.toNat + units c :=
          ⟨.ofNat (current.toNat + units c), toNat_ofNat (by omega)⟩
        have hplus : plus? current (.ofNat (units c)) = some next :=
          plus?_eq_some_iff.mpr (by rw [hunits, hnext])
        have hrest : col.toNat - next.toNat = more + 1 - units c := by omega
        have hih := @ih next (by rw [hrest]; omega)
        rw [hrest] at hih
        simp only [reach?, hcol, hends, decide_false, Bool.or_self, Bool.false_eq_true, if_false,
          hplus, Option.bind_eq_bind, Option.bind_some, hih, htake, hmore, cutAtCol, size]
        rfl

/-- Whether the place that a column of a line names has a column that is a word. -/
def ColFits (line : Text) (col : UInt32) : Prop :=
  width (cutAtCol col.toNat line).1 < UInt32.size

/-- Each column fits on a line that does. -/
theorem ColFits.of_width_lt {line : Text} (h : width line < UInt32.size) (col : UInt32) :
    ColFits line col :=
  (width_le_of_startsLine (cutAtCol_startsLine col.toNat line)).trans_lt h

/-- The offset of a column is found without a failing step. -/
theorem colToOffset?_eq {line : Text} {col : UInt32} (h : ColFits line col) :
    colToOffset? line col = some (colToOffset line col.toNat) := by
  have hall : line.takeWhile (!(fun _ => false) ·) = line :=
    List.takeWhile_eq_self_iff.mpr fun _ _ => rfl
  have hreach := @reach?_eq (fun _ => false) col 0 line
    (by rw [hall]; exact (Nat.zero_add _).trans_lt h)
  rw [hall] at hreach
  exact hreach

/-- The column behind a part of a line, cut down to a word. -/
theorem offsetToCol?_size (before after : Text) :
    offsetToCol? (before ++ after) (size before) = some (.ofNat (width before)) := by
  rw [offsetToCol?, cutAtOctet?_size]
  rfl

/-- The column of an offset is found without a failing step, wherever there is one. -/
theorem offsetToCol?_eq (line : Text) (offset : Nat) :
    offsetToCol? line offset = (Text.offsetToCol? line offset).map .ofNat := by
  rw [Text.offsetToCol?_eq, Option.map_map]
  exact (Option.map_eq_bind ..).symm

/-! ## Points -/

/-- Whether the place that a point of a document names has a column that is a word. -/
def PointFits (text : Text) (point : Point) : Prop :=
  ∀ line, (splitOn '\n' text)[point.line.toNat]? = some line → ColFits line point.col

/-- Each point fits on a line that does. -/
theorem PointFits.of_rowFits {text : Text} {point : Point} (h : RowFits text point.line.toNat) :
    PointFits text point :=
  fun line hline => .of_width_lt (h line hline) point.col

/-- The offset of a point is found without a failing step. -/
theorem pointToOffset?_eq {text : Text} {point : Point} (h : PointFits text point) :
    pointToOffset? text point = some (Text.pointToOffset? text point.toPoint) := by
  cases hrest : afterFeeds point.line.toNat text with
  | none =>
    have hstarts := lineStarts_getElem? text point.line.toNat
    rw [hrest] at hstarts
    simp only [pointToOffset?, hstarts, Option.map_none, Text.pointToOffset?, Point.toPoint, hrest]
  | some rest =>
    have hstarts := lineStarts_getElem? text point.line.toNat
    rw [hrest, Option.map_some] at hstarts
    have hfits : ColFits (rest.takeWhile (· ≠ '\n')) point.col :=
      h _ (by rw [splitOn_getElem?, hrest, Option.map_some])
    have htake : (rest.takeWhile fun c => !(c == '\n')) = rest.takeWhile (· ≠ '\n') :=
      congrArg (rest.takeWhile ·) (funext fun c => (decide_not).symm)
    have hreach := @reach?_eq (· == '\n') point.col 0 rest
      (by rw [htake]; exact (Nat.zero_add _).trans_lt hfits)
    rw [htake] at hreach
    obtain ⟨head, rfl, -⟩ := exists_head_of_afterFeeds hrest
    rw [size_append, Nat.add_sub_cancel] at hstarts
    simp only [pointToOffset?, hstarts, cutAtOctet?_size, hreach, Option.bind_eq_bind,
      Option.bind_some, Text.pointToOffset?, Point.toPoint, hrest, Option.map_some,
      cutInLine_eq_cutAtCol, size_append, Nat.add_sub_cancel]
    rfl

/-- Of two places of a text, one does not stand behind the other, and their offsets say which. -/
theorem exists_ordered_places {text first second : Text} (hfirst : first <+: text)
    (hsecond : second <+: text) :
    ∃ lower upper, lower <+: upper ∧ upper <+: text ∧
      min (size first) (size second) = size lower ∧
        max (size first) (size second) = size upper := by
  rcases List.prefix_or_prefix_of_prefix hfirst hsecond with hprefix | hprefix
  · have hle := size_le_of_startsText hprefix
    exact ⟨first, second, hprefix, hsecond, Nat.min_eq_left hle, Nat.max_eq_right hle⟩
  · have hle := size_le_of_startsText hprefix
    exact ⟨second, first, hprefix, hfirst, Nat.min_eq_right hle, Nat.max_eq_left hle⟩

/-- Between the offsets of two places of a text, its octets are cut without a failing step. -/
theorem between?_eq_slice {text lower upper : Text} (hlower : lower <+: upper)
    (hupper : upper <+: text) :
    between? text (size lower) (size upper) = some (slice text (size lower) (size upper)) := by
  obtain ⟨part, rfl⟩ := hlower
  obtain ⟨after, rfl⟩ := hupper
  have hlength : size (lower ++ part) - size lower = size part := by
    rw [size_append, Nat.add_sub_cancel_left]
  rw [between?_size, slice, hlength, List.append_assoc, cutAtOffset_size, cutAtOffset_size]

/-- The text in a range is found without a failing step. -/
theorem inRange?_eq {text : Text} {range : TextRange}
    (hstart : PointFits text range.start) (hstop : PointFits text range.stop) :
    inRange? text range = some (Text.inRange? text range.toRange) := by
  simp only [inRange?, pointToOffset?_eq hstart, pointToOffset?_eq hstop, Text.inRange?,
    TextRange.toRange, Option.bind_eq_bind, Option.bind_some]
  cases hone : Text.pointToOffset? text range.start.toPoint with
  | none => rfl
  | some start =>
    cases htwo : Text.pointToOffset? text range.stop.toPoint with
    | none => rfl
    | some stop =>
      obtain ⟨first, hfirst, rfl⟩ := exists_startsText_of_pointToOffset? hone
      obtain ⟨second, hsecond, rfl⟩ := exists_startsText_of_pointToOffset? htwo
      obtain ⟨lower, upper, hlower, hupper, hmin, hmax⟩ := exists_ordered_places hfirst hsecond
      simp only [Option.bind_some, hmin, hmax, between?_eq_slice hlower hupper]
      rfl

/-- The end of an inserted text is found without a failing step if it fits into words. -/
theorem endOf?_eq {start : Point} {inserted : Text}
    (hline : (endOf start.toPoint inserted).line < UInt32.size)
    (hcol : (endOf start.toPoint inserted).col < UInt32.size) :
    endOf? start inserted = some (.ofPoint (endOf start.toPoint inserted)) := by
  unfold endOf? endOf at *
  cases hcount : inserted.count '\n' with
  | zero =>
    rw [hcount] at hcol
    replace hcol : start.col.toNat + width inserted < UInt32.size := hcol
    have hwidth : width inserted < UInt32.size := (Nat.le_add_left _ _).trans_lt hcol
    have hplus : plus? start.col (.ofNat (width inserted)) =
        some (.ofNat (start.col.toNat + width inserted)) :=
      plus?_eq_some_iff.mpr (by rw [toNat_ofNat hwidth, toNat_ofNat hcol])
    simp only [hplus, Option.map_some, Point.ofPoint, Point.toPoint, UInt32.ofNat_toNat]
  | succ feeds =>
    rw [hcount] at hline
    replace hline : start.line.toNat + (feeds + 1) < UInt32.size := hline
    have hfeeds : feeds + 1 < UInt32.size := (Nat.le_add_left _ _).trans_lt hline
    have hplus : plus? start.line (.ofNat (feeds + 1)) =
        some (.ofNat (start.line.toNat + (feeds + 1))) :=
      plus?_eq_some_iff.mpr (by rw [toNat_ofNat hfeeds, toNat_ofNat hline])
    simp only [hplus, Option.map_some, Point.ofPoint, Point.toPoint]

/-- At the offset of a place, the octets of a text are cut without a failing step. -/
theorem cutAtOctet?_eq_cutAtOffset {text before : Text} (h : before <+: text) :
    cutAtOctet? text (size before) = some (cutAtOffset (size before) text) := by
  obtain ⟨after, rfl⟩ := h
  rw [cutAtOctet?_size, cutAtOffset_size]

/-- A range is replaced without a failing step, and the cursor stands where it stands without words,
if the place behind the new text fits into words. -/
theorem replace?_eq {document : Text} {range : TextRange} {inserted : Text}
    (hstart : PointFits document range.start) (hstop : PointFits document range.stop)
    (hline : (endOf range.start.toPoint inserted).line < UInt32.size)
    (hcol : (endOf range.start.toPoint inserted).col < UInt32.size) :
    (replace? document range inserted).map (Prod.map id (Option.map Point.toPoint)) =
      some (ContentChange.apply document ⟨some range.toRange, inserted⟩) := by
  simp only [replace?, pointToOffset?_eq hstart, pointToOffset?_eq hstop, ContentChange.apply,
    TextRange.toRange, Option.bind_eq_bind, Option.bind_some]
  cases hone : Text.pointToOffset? document range.start.toPoint with
  | none => rfl
  | some start =>
    obtain ⟨first, hfirst, rfl⟩ := exists_startsText_of_pointToOffset? hone
    obtain ⟨second, hsecond, htwo⟩ : ∃ second, second <+: document ∧
        (Text.pointToOffset? document range.stop.toPoint).getD (size document) = size second := by
      cases hstopped : Text.pointToOffset? document range.stop.toPoint with
      | none => exact ⟨document, List.prefix_rfl, rfl⟩
      | some stop => exact exists_startsText_of_pointToOffset? hstopped
    obtain ⟨lower, upper, hlower, hupper, hmin, hmax⟩ := exists_ordered_places hfirst hsecond
    have hends := @Point.toPoint_ofPoint (endOf range.start.toPoint inserted) hline hcol
    simp only [htwo, hmin, hmax, cutAtOctet?_eq_cutAtOffset (hlower.trans hupper),
      cutAtOctet?_eq_cutAtOffset hupper, endOf?_eq hline hcol, Option.bind_some, Option.pure_def,
      Option.map_some, Prod.map_apply, hends]
    rfl

/-! ## Places of a line and of a document -/

end Stored
end LinkedNotes
