import LinkedNotes.Proofs.Text.Lines

/-!
# Taking back an edit

An edit of a document replaces the part that its range covers, over several lines perhaps, and the
cursor comes to stand behind the new text. Main statement: the cursor is at the first octet behind
the new text, the new text is what stands between the start of the edit and the cursor, and putting
the old text back there gives the old document. Ranges that start inside a surrogate pair, or past
the end of their line, are outside this module, and so is the size of the numbers.
-/

namespace LinkedNotes.Text

/-- Whether a point stands between two characters of its line, or at an end of the line. A carriage
return before the line feed belongs to the line. -/
def AtBoundary (text : Text) (point : Point) : Prop :=
  ∃ before after, (splitOn '\n' text)[point.line]? = some (before ++ after) ∧
    width before = point.col

/-- Whether a range can be replaced and put back: it starts at a boundary, it does not run
backwards, and there is a line on which it ends. Where on this line it ends does not matter. -/
structure Editable (text : Text) (range : TextRange) : Prop where
  /-- It starts between two characters. -/
  start : AtBoundary text range.start
  /-- It does not end before it starts. -/
  ordered : range.start.line < range.stop.line ∨
    range.start.line = range.stop.line ∧ range.start.col ≤ range.stop.col
  /-- It ends on a line of the document. -/
  stop : range.stop.line < (splitOn '\n' text).length

/-- Whether a range covers a part of a document, between what stands before and after the part. -/
structure Covers (range : TextRange) (before part after : Text) : Prop where
  /-- The range starts where the part does. -/
  start : pointToOffset? (before ++ part ++ after) range.start = some (size before)
  /-- It ends where the part does. -/
  stop : pointToOffset? (before ++ part ++ after) range.stop = some (size (before ++ part))

/-! ## Lines further on -/

/-- Counting on from a line gives the lines below it. -/
theorem afterFeeds_add (n more : Nat) (text : Text) :
    afterFeeds (n + more) text = (afterFeeds n text).bind (afterFeeds more) := by
  induction text generalizing n with
  | nil =>
    cases n with
    | zero => simp [afterFeeds]
    | succ n => simp [Nat.succ_add, afterFeeds]
  | cons c tail ih =>
    cases n with
    | zero => simp [afterFeeds]
    | succ n =>
      simp only [Nat.succ_add n more, afterFeeds]
      by_cases hc : c = '\n'
      · rw [if_pos hc, if_pos hc, ih]
      · rw [if_neg hc, if_neg hc, ← ih, Nat.succ_add]

/-- The lines below a part of a line are those below what follows it. -/
theorem afterFeeds_succ_append {part : Text} (h : '\n' ∉ part) (n : Nat) (rest : Text) :
    afterFeeds (n + 1) (part ++ rest) = afterFeeds (n + 1) rest := by
  induction part with
  | nil => rfl
  | cons c part ih =>
    obtain ⟨hc, hpart⟩ := not_or.mp (List.mem_cons.not.mp h)
    rw [List.cons_append, afterFeeds, if_neg (Ne.symm hc), ih hpart]

/-- A text that ends with a line feed is followed by the line with the number of its line feeds. -/
theorem afterFeeds_count (text rest : Text) :
    afterFeeds (text.count '\n' + 1) (text ++ '\n' :: rest) = some rest := by
  induction text with
  | nil => simp [afterFeeds]
  | cons c text ih =>
    by_cases hc : c = '\n'
    · simpa [hc, afterFeeds] using ih
    · simpa [hc, afterFeeds] using ih

/-- The last line of a text with line feeds stands behind the last of them. -/
theorem exists_eq_append_lastLine {text : Text} (h : '\n' ∈ text) :
    ∃ before, text = before ++ '\n' :: lastLine text ∧ '\n' ∉ lastLine text := by
  have hlast : '\n' ∉ lastLine text := fun hmem =>
    notMem_takeWhile_feed text.reverse (List.mem_reverse.mp hmem)
  have hsplit := List.takeWhile_append_dropWhile (p := (· ≠ '\n')) (l := text.reverse)
  cases hrest : text.reverse.dropWhile (· ≠ '\n') with
  | nil =>
    rw [List.dropWhile_eq_nil_iff] at hrest
    have := hrest '\n' (List.mem_reverse.mpr h)
    simp at this
  | cons c more =>
    have hc : c = '\n' := by
      have hhead := List.head?_dropWhile_not (· ≠ '\n') text.reverse
      rw [hrest] at hhead
      simpa using hhead
    refine ⟨more.reverse, ?_, hlast⟩
    rw [hrest, hc] at hsplit
    have htext := congrArg List.reverse hsplit
    simpa [lastLine] using htext.symm

/-! ## What a range covers -/

/-- A point on a line names a place behind the start of the line. -/
theorem exists_pointToOffset?_of_afterFeeds {n : Nat} {text rest : Text}
    (h : afterFeeds n text = some rest) (col : Nat) :
    ∃ head, text = head ++ rest ∧
      pointToOffset? text ⟨n, col⟩ = some (size (head ++ (cutInLine col rest).1)) := by
  obtain ⟨head, rfl, -⟩ := exists_head_of_afterFeeds h
  exact ⟨head, rfl, by simp [pointToOffset?, h]⟩

/-- A column at or behind a part of a line is counted on from this part. -/
theorem cutInLine_append_of_le {part : Text} (h : '\n' ∉ part) {col : Nat}
    (hcol : width part ≤ col) (rest : Text) :
    (cutInLine col (part ++ rest)).1 = part ++ (cutInLine (col - width part) rest).1 := by
  induction part generalizing col with
  | nil => rfl
  | cons c part ih =>
    obtain ⟨hc, hpart⟩ := not_or.mp (List.mem_cons.not.mp h)
    have hunits := units_pos c
    simp only [width] at hcol ⊢
    obtain ⟨n, rfl⟩ : ∃ n, col = n + 1 := ⟨col - 1, by omega⟩
    have hle : width part ≤ n + 1 - units c := by omega
    have hrest := ih hpart hle
    have hsub : n + 1 - units c - width part = n + 1 - (units c + width part) := by omega
    simp [cutInLine, Ne.symm hc, hrest, hsub]

/-- A boundary of a line stands between the lines above with a part of the line, and the rest. -/
theorem AtBoundary.exists_parts {text : Text} {point : Point} (h : AtBoundary text point) :
    ∃ head part rest, text = head ++ (part ++ rest) ∧ '\n' ∉ part ∧ width part = point.col ∧
      ∀ other, afterFeeds point.line (head ++ other) = some other := by
  obtain ⟨before, after, hline, hwidth⟩ := h
  rw [splitOn_getElem?] at hline
  obtain ⟨rest, hrest, hraw⟩ := Option.map_eq_some_iff.mp hline
  obtain ⟨head, rfl, hhead⟩ := exists_head_of_afterFeeds hrest
  have hfeed : '\n' ∉ before ++ after := hraw ▸ notMem_takeWhile_feed rest
  refine ⟨head, before, after ++ rest.dropWhile (· ≠ '\n'), ?_, ?_, hwidth, hhead⟩
  · rw [← List.append_assoc before, ← hraw, List.takeWhile_append_dropWhile]
  · exact fun hmem => hfeed (List.mem_append_left after hmem)

/-- Where a text ends that is put behind a part of a line, there ends the range of this text. -/
theorem covers_endOf {head part : Text} {start : Point} (hpart : '\n' ∉ part)
    (hwidth : width part = start.col)
    (hhead : ∀ other, afterFeeds start.line (head ++ other) = some other) (inserted after : Text) :
    Covers ⟨start, endOf start inserted⟩ (head ++ part) inserted after where
  start := by
    have hstart := pointToOffset?_onLine hhead hpart (inserted ++ after)
    rw [hwidth] at hstart
    simpa using hstart
  stop := by
    by_cases hfeed : '\n' ∈ inserted
    · -- The cursor is on a new line, which starts behind the last line feed.
      obtain ⟨before, hinserted, hlast⟩ := exists_eq_append_lastLine hfeed
      have hcount : inserted.count '\n' = before.count '\n' + 1 := by
        rw [hinserted, List.count_append, List.count_cons_self, List.count_eq_zero_of_not_mem hlast]
      have hnext : ∀ other, afterFeeds (start.line + (before.count '\n' + 1))
          (head ++ (part ++ (before ++ ['\n'])) ++ other) = some other := fun other => by
        rw [List.append_assoc, afterFeeds_add, hhead, Option.bind_some, List.append_assoc,
          afterFeeds_succ_append hpart, List.append_assoc]
        exact afterFeeds_count before other
      have hstop := pointToOffset?_onLine hnext hlast after
      have hend : endOf start inserted =
          ⟨start.line + (before.count '\n' + 1), width (lastLine inserted)⟩ := by
        simp [endOf, hcount]
      have hall : head ++ (part ++ (before ++ ['\n'])) ++ lastLine inserted =
          head ++ part ++ inserted := by
        conv_rhs => rw [hinserted]
        simp
      rw [← List.append_assoc, hall, ← hend] at hstop
      exact hstop
    · have hboth : '\n' ∉ part ++ inserted := by simp [hpart, hfeed]
      have hstop := pointToOffset?_onLine hhead hboth after
      have hend : endOf start inserted = ⟨start.line, width (part ++ inserted)⟩ := by
        simp [endOf, List.count_eq_zero_of_not_mem hfeed, hwidth]
      rw [← hend] at hstop
      simpa using hstop

/-- A range that can be replaced covers a part of the document, and whatever is put in place of this
part is what stands between the start of the range and the cursor. -/
theorem Editable.exists_covers {text : Text} {range : TextRange} (h : Editable text range) :
    ∃ before part after, text = before ++ part ++ after ∧ Covers range before part after ∧
      ∀ inserted, Covers ⟨range.start, endOf range.start inserted⟩ before inserted after := by
  obtain ⟨hstart, hordered, hstop⟩ := h
  obtain ⟨head, part, rest, rfl, hpart, hwidth, hhead⟩ := hstart.exists_parts
  have hbegin := pointToOffset?_onLine hhead hpart rest
  rw [hwidth] at hbegin
  obtain ⟨covered, after, hrest, hend⟩ : ∃ covered after, rest = covered ++ after ∧
      pointToOffset? (head ++ (part ++ rest)) range.stop =
        some (size (head ++ part ++ covered)) := by
    rcases hordered with hline | ⟨hline, hcol⟩
    · obtain ⟨more, hmore⟩ : ∃ more, range.stop.line = range.start.line + (more + 1) :=
        ⟨range.stop.line - range.start.line - 1, by omega⟩
      obtain ⟨below, hbelow⟩ : ∃ below, afterFeeds (more + 1) rest = some below := by
        have hlines := splitOn_getElem? (head ++ (part ++ rest)) range.stop.line
        rw [hmore, afterFeeds_add, hhead, Option.bind_some, afterFeeds_succ_append hpart, ← hmore,
          List.getElem?_eq_getElem hstop] at hlines
        obtain ⟨below, hbelow, -⟩ := Option.map_eq_some_iff.mp hlines.symm
        exact ⟨below, hbelow⟩
      have hwhole : afterFeeds range.stop.line (head ++ (part ++ rest)) = some below := by
        rw [hmore, afterFeeds_add, hhead, Option.bind_some, afterFeeds_succ_append hpart, hbelow]
      obtain ⟨lines, rfl, -⟩ := exists_head_of_afterFeeds hbelow
      obtain ⟨above, habove, hoffset⟩ :=
        exists_pointToOffset?_of_afterFeeds hwhole range.stop.col
      have hsame : above = head ++ part ++ lines := by
        have := habove.symm
        rwa [← List.append_assoc, ← List.append_assoc, List.append_left_inj] at this
      refine ⟨lines ++ (cutInLine range.stop.col below).1, (cutInLine range.stop.col below).2,
        by rw [List.append_assoc, cutInLine_append], ?_⟩
      rw [hsame] at hoffset
      simpa using hoffset
    · have hcut := cutInLine_append_of_le hpart (hwidth.trans_le hcol) rest
      refine ⟨(cutInLine (range.stop.col - width part) rest).1,
        (cutInLine (range.stop.col - width part) rest).2, (cutInLine_append _ rest).symm, ?_⟩
      simp [pointToOffset?, ← hline, hhead, hcut]
  refine ⟨head ++ part, covered, after, by simp [hrest], ⟨?_, ?_⟩,
    fun inserted => covers_endOf hpart hwidth hhead inserted after⟩
  · simpa [hrest] using hbegin
  · simpa [hrest] using hend

namespace Covers

variable {range : TextRange} {before part after : Text}

/-- The text in a range is the part that it covers. -/
theorem inRange?_eq (h : Covers range before part after) :
    inRange? (before ++ part ++ after) range = some part := by
  have hle : size before ≤ size (before ++ part) := by simp
  have hrest := cutAtOffset_size before (part ++ after)
  have hpart := cutAtOffset_size part after
  have hlength : size (before ++ part) - size before = size part := by simp
  simp only [inRange?, h.start, h.stop, Option.bind_eq_bind, Option.bind_some, slice,
    Nat.min_eq_left hle, Nat.max_eq_right hle, hlength]
  rw [List.append_assoc, hrest, hpart]
  rfl

/-- A change of a range puts the new text in place of the part that it covers. -/
theorem apply_eq (h : Covers range before part after) (inserted : Text) :
    ContentChange.apply (before ++ part ++ after) ⟨some range, inserted⟩ =
      (before ++ inserted ++ after, some (endOf range.start inserted)) := by
  have hle : size before ≤ size (before ++ part) := by simp
  have hfirst := cutAtOffset_size before (part ++ after)
  rw [← List.append_assoc] at hfirst
  have hsecond := cutAtOffset_size (before ++ part) after
  simp only [ContentChange.apply, h.start, h.stop, Option.getD_some, Nat.min_eq_left hle,
    Nat.max_eq_right hle, hfirst, hsecond]

end Covers
end LinkedNotes.Text

namespace LinkedNotes.ContentChange

open Text

/-- An edit puts the new text in place of the old one that its range covers. The cursor is at the
first octet behind the new text, which is the text between the start of the edit and the cursor, and
putting the old text back there gives the old document. -/
theorem apply_takenBack {document : Text} {range : TextRange} (h : Editable document range)
    (inserted : Text) :
    ∃ before old after cursor,
      document = before ++ old ++ after ∧
      pointToOffset? document range.start = some (size before) ∧
      inRange? document range = some old ∧
      apply document ⟨some range, inserted⟩ = (before ++ inserted ++ after, some cursor) ∧
      pointToOffset? (before ++ inserted ++ after) cursor = some (size (before ++ inserted)) ∧
      inRange? (before ++ inserted ++ after) ⟨range.start, cursor⟩ = some inserted ∧
      (apply (before ++ inserted ++ after) ⟨some ⟨range.start, cursor⟩, old⟩).1 = document := by
  obtain ⟨before, old, after, rfl, hcovers, hinserted⟩ := h.exists_covers
  have hnew := hinserted inserted
  refine ⟨before, old, after, endOf range.start inserted, rfl, hcovers.start, hcovers.inRange?_eq,
    hcovers.apply_eq inserted, hnew.stop, hnew.inRange?_eq, ?_⟩
  rw [hnew.apply_eq old]

/-- An edit from before a carriage return into a surrogate pair of the next line is taken back. -/
theorem apply_takenBack_into_pair :
    let document := "a😀\r\nb😀c".toList
    let range : TextRange := ⟨⟨0, 3⟩, ⟨1, 2⟩⟩
    let edited := apply document ⟨some range, "x\ny".toList⟩
    Editable document range ∧ edited = ("a😀x\nyc".toList, some ⟨1, 1⟩) ∧
      (apply edited.1 ⟨some ⟨⟨0, 3⟩, ⟨1, 1⟩⟩, "\r\nb😀".toList⟩).1 = document := by
  intro document range edited
  have heditable : Editable document range :=
    ⟨⟨"a😀".toList, "\r".toList, by decide, by decide⟩, by decide, by decide⟩
  have hedited : edited = ("a😀x\nyc".toList, some ⟨1, 1⟩) := by decide
  obtain ⟨before, old, after, cursor, -, -, hold, hafter, -, -, hback⟩ :=
    apply_takenBack heditable "x\ny".toList
  have hcovered : inRange? document range = some "\r\nb😀".toList := by decide
  obtain rfl : "\r\nb😀".toList = old := Option.some.inj (hcovered.symm.trans hold)
  have hboth : ("a😀x\nyc".toList, some (⟨1, 1⟩ : Point)) =
      (before ++ "x\ny".toList ++ after, some cursor) := hedited.symm.trans hafter
  obtain ⟨htext, hcursor⟩ := Prod.mk.inj hboth
  obtain rfl : (⟨1, 1⟩ : Point) = cursor := Option.some.inj hcursor
  refine ⟨heditable, hedited, ?_⟩
  rw [hedited, htext]
  exact hback

end LinkedNotes.ContentChange
