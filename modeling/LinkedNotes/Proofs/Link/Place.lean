import LinkedNotes.Proofs.Link.Scan
import LinkedNotes.Proofs.Text.Undo

/-!
# What the range of a link covers

A search for links gives each of them the range of its token. Main statement: in the text that was
searched this range covers the brackets with the text of the link between them, and so it does in
any other text that has the same line in the same place.
-/

namespace LinkedNotes.Text

/-- Dropping a carriage return leaves the start of a line. -/
theorem dropReturn_startsLine (line : Text) : dropReturn line <+: line := by
  unfold dropReturn
  split
  · exact List.dropLast_prefix line
  · exact List.prefix_refl line

/-- The columns of a part of a line cover this part of the document. -/
theorem exists_covers_onLine {text before part after : Text} {row : Nat}
    (h : lineAt? text row = some (before ++ part ++ after)) :
    ∃ head rest, text = head ++ part ++ rest ∧
      Covers (.onLine row (width before) (width before + width part)) head part rest := by
  have hfeed := notMem_of_lineAt? h
  have hbefore : '\n' ∉ before := fun hmem => hfeed (by simp [hmem])
  have hboth : '\n' ∉ before ++ part := fun hmem => hfeed (List.mem_append_left _ hmem)
  rw [lineAt?_eq] at h
  obtain ⟨below, hbelow, hline⟩ := Option.map_eq_some_iff.mp h
  obtain ⟨above, rfl, habove⟩ := exists_head_of_afterFeeds hbelow
  obtain ⟨rest, hrest⟩ : before ++ part ++ after <+: below :=
    hline ▸ (dropReturn_startsLine _).trans (List.takeWhile_prefix _)
  refine ⟨above ++ before, after ++ rest, by simp [← hrest], ?_, ?_⟩
  · have hstart := pointToOffset?_onLine habove hbefore (part ++ (after ++ rest))
    simpa [TextRange.onLine] using hstart
  · have hstop := pointToOffset?_onLine habove hboth (after ++ rest)
    rw [width_append] at hstop
    simpa [TextRange.onLine] using hstop

/-- The text between the columns of a part of a line is this part. -/
theorem inRange?_onLine {text before part after : Text} {row : Nat}
    (h : lineAt? text row = some (before ++ part ++ after)) :
    inRange? text (.onLine row (width before) (width before + width part)) = some part := by
  obtain ⟨head, rest, rfl, hcovers⟩ := exists_covers_onLine h
  exact hcovers.inRange?_eq

end LinkedNotes.Text

namespace LinkedNotes.Link

open Text

/-- A range of a text covers a link: the brackets with some text between them, on one line. -/
structure Covered (text : Text) (range : TextRange) (inner : Text) : Prop where
  /-- There is some text. -/
  nonempty : inner ≠ []
  /-- It has no bracket that closes. -/
  unclosed : ']' ∉ inner
  /-- It does not go on to another line. -/
  unbroken : '\n' ∉ inner
  /-- With its brackets it stands in the range. -/
  spelled : inRange? text range = some (opening ++ inner ++ closing)

/-- A token that is found on a line of a document is covered by its columns. -/
theorem covered_of_mem_tokens {text line : Text} {row : Nat} {token : Token}
    (hline : lineAt? text row = some line) (h : token ∈ tokens line) :
    Covered text (token.onLine row).range token.text := by
  obtain ⟨before, after, -, hsplit, hcol, hne, hclose, -, -⟩ := exists_of_mem_tokensFrom h
  have hfeed : '\n' ∉ token.text := fun hmem => notMem_of_lineAt? hline (by simp [hsplit, hmem])
  have hparts : line = before ++ (opening ++ token.text ++ closing) ++ after := by
    simp [hsplit]
  have hend : token.endCol = width before + width (opening ++ token.text ++ closing) := by
    rw [Token.endCol_eq, hcol, Nat.zero_add]
  refine ⟨hne, hclose, hfeed, ?_⟩
  rw [hparts] at hline
  have hrange := inRange?_onLine hline
  rwa [← hend, ← Nat.zero_add (width before), ← hcol] at hrange

/-- The tokens of numbered lines are those of the single lines. -/
theorem mem_scanLines_iff {n : Nat} {lines : List Text} {occurrence : Occurrence} :
    occurrence ∈ scanLines n lines ↔
      ∃ k line token, lines[k]? = some line ∧ token ∈ tokens (dropReturn line) ∧
        occurrence = token.onLine (n + k) := by
  induction lines generalizing n with
  | nil => simp [scanLines]
  | cons first rest ih =>
    have hfirst : occurrence ∈ (tokens (dropReturn first)).map (·.onLine n) ↔
        ∃ token ∈ tokens (dropReturn first), occurrence = token.onLine n := by
      simp only [List.mem_map, eq_comm]
    rw [scanLines, List.mem_append, ih]
    refine (or_congr_left hfirst).trans ⟨?_, ?_⟩
    · rintro (⟨token, htoken, rfl⟩ | ⟨k, line, token, hline, htoken, rfl⟩)
      · exact ⟨0, first, token, rfl, htoken, rfl⟩
      · exact ⟨k + 1, line, token, hline, htoken, by rw [Nat.add_right_comm, Nat.add_assoc]⟩
    · rintro ⟨k, line, token, hline, htoken, rfl⟩
      cases k with
      | zero =>
        obtain rfl : first = line := Option.some.inj hline
        exact .inl ⟨token, htoken, rfl⟩
      | succ k =>
        exact .inr ⟨k, line, token, hline, htoken, by rw [Nat.add_right_comm, Nat.add_assoc]⟩

/-- The tokens of a document are those of its lines. -/
theorem mem_scan_iff {text : Text} {occurrence : Occurrence} :
    occurrence ∈ scan text ↔
      ∃ row line token, lineAt? text row = some line ∧ token ∈ tokens line ∧
        occurrence = token.onLine row := by
  rw [scan, mem_scanLines_iff]
  simp only [Nat.zero_add, lineAt?, Option.map_eq_some_iff]
  constructor
  · rintro ⟨row, line, token, hline, hmem⟩
    exact ⟨row, dropReturn line, token, ⟨line, hline, rfl⟩, hmem⟩
  · rintro ⟨row, _, token, ⟨line, hline, rfl⟩, hmem⟩
    exact ⟨row, line, token, hline, hmem⟩

/-- The range of a token covers it in every text that has its line in the same place. -/
theorem covered_of_mem_scan {text other : Text} {occurrence : Occurrence}
    (h : occurrence ∈ scan text)
    (hline : lineAt? other occurrence.range.start.line =
      lineAt? text occurrence.range.start.line) :
    Covered other occurrence.range occurrence.text := by
  obtain ⟨row, line, token, hrow, htoken, rfl⟩ := mem_scan_iff.mp h
  exact covered_of_mem_tokens (hline.trans hrow) htoken

end LinkedNotes.Link
