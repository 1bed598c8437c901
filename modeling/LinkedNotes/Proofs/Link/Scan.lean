import LinkedNotes.Link.Cursor
import LinkedNotes.Proofs.Link.Token

/-!
# The link at a point and the links of a document

A cursor asks one line for the link that it is at, and a search for links goes through all lines.
Main statement: both find the same. The cursor is at a link with some text exactly when the search
finds a token that holds it, and then it is the first such token. Empty links, and links that are
not closed yet, are only known to the cursor. Lines and columns may be of any size here; words are a
matter of `LinkedNotes.Proofs.Link.Stored`.
-/

namespace LinkedNotes.Link

open Text

/-- Whether a point is at a token: on its line, and not outside its brackets. -/
def Occurrence.Holds (occurrence : Occurrence) (point : Point) : Prop :=
  occurrence.range.start.line = point.line ∧ occurrence.range.start.col ≤ point.col ∧
    point.col ≤ occurrence.range.stop.col

instance (occurrence : Occurrence) (point : Point) : Decidable (occurrence.Holds point) :=
  inferInstanceAs (Decidable (_ ∧ _ ∧ _))

/-- The range of a token without its brackets. -/
def Occurrence.inside (occurrence : Occurrence) : TextRange :=
  ⟨⟨occurrence.range.start.line, occurrence.range.start.col + 2⟩,
    ⟨occurrence.range.stop.line, occurrence.range.stop.col - 2⟩⟩

/-- The link that a token stands for. -/
def Occurrence.link (occurrence : Occurrence) : Link :=
  ⟨occurrence.text, occurrence.inside⟩

/-- A token of one line as a token of the document. -/
def Token.onLine (token : Token) (row : Nat) : Occurrence :=
  ⟨.onLine row token.col token.endCol, token.text⟩

/-- On its own line, a token holds the columns from its first bracket to behind its last. -/
theorem Token.onLine_holds (token : Token) (row col : Nat) :
    (token.onLine row).Holds ⟨row, col⟩ ↔ token.col ≤ col ∧ col ≤ token.endCol := by
  simp [Occurrence.Holds, onLine, TextRange.onLine]

/-- The link around a column of a line stands for the first token that holds the column. -/
theorem containing?_eq_find? (line : Text) (row col : Nat) :
    containing? line row col =
      (((tokens line).map (·.onLine row)).find? (·.Holds ⟨row, col⟩)).map Occurrence.link := by
  rw [containing?, List.find?_map, Option.map_map]
  congr 2
  funext token
  rw [Bool.eq_iff_iff, Function.comp_apply, decide_eq_true_iff, Token.onLine_holds,
    Bool.and_eq_true, decide_eq_true_iff, decide_eq_true_iff]

/-- No token of a line holds a point on another one. -/
theorem find?_onLine_of_ne {row : Nat} {point : Point} (h : row ≠ point.line)
    (found : List Token) : (found.map (·.onLine row)).find? (·.Holds point) = none := by
  rw [List.find?_eq_none]
  intro occurrence hmem hholds
  obtain ⟨token, -, rfl⟩ := List.mem_map.mp hmem
  exact h (of_decide_eq_true hholds).1

/-- The first token of numbered lines that holds a point is the first one on the line of the
point. -/
theorem find?_scanLines (n k col : Nat) (lines : List Text) :
    (scanLines n lines).find? (·.Holds ⟨n + k, col⟩) =
      lines[k]?.bind fun line =>
        ((tokens (dropReturn line)).map (·.onLine (n + k))).find? (·.Holds ⟨n + k, col⟩) := by
  induction lines generalizing n k with
  | nil => simp [scanLines]
  | cons line rest ih =>
    have hline : scanLines n (line :: rest) =
        (tokens (dropReturn line)).map (·.onLine n) ++ scanLines (n + 1) rest := rfl
    rw [hline, List.find?_append]
    cases k with
    | zero =>
      -- The lines below the first one are on other rows.
      have hbelow : (scanLines (n + 1) rest).find? (·.Holds ⟨n + 0, col⟩) = none := by
        rw [List.find?_eq_none]
        intro occurrence hmem hholds
        have hrow := (place_of_mem_scanLines hmem).1
        have hsame := (of_decide_eq_true hholds).1
        simp only at hsame
        omega
      rw [hbelow, Option.or_none]
      rfl
    | succ k =>
      have hfirst : n ≠ (⟨n + (k + 1), col⟩ : Point).line := by simp only; omega
      have hrest := ih (n + 1) k
      rw [Nat.add_right_comm, Nat.add_assoc n k 1] at hrest
      rw [find?_onLine_of_ne hfirst, Option.none_or, hrest,
        List.getElem?_cons_succ]

/-- The first token of a document that holds a point is the link around the point on its line. -/
theorem find?_scan (text : Text) (point : Point) :
    ((scan text).find? (·.Holds point)).map Occurrence.link =
      (lineAt? text point.line).bind fun line => containing? line point.line point.col := by
  have hscan := find?_scanLines 0 point.line point.col (splitOn '\n' text)
  rw [Nat.zero_add] at hscan
  rw [scan, hscan, lineAt?]
  cases (splitOn '\n' text)[point.line]? with
  | none => rfl
  | some line => exact (containing?_eq_find? _ _ _).symm

/-- A token has some text between its brackets. -/
theorem text_ne_nil_of_containing? {line : Text} {row col : Nat} {link : Link}
    (h : containing? line row col = some link) : link.text ≠ [] := by
  obtain ⟨token, hfind, rfl⟩ := Option.map_eq_some_iff.mp h
  obtain ⟨-, -, -, -, -, hne, -⟩ := exists_of_mem_tokensFrom (List.mem_of_find?_eq_some hfind)
  exact hne

/-- An empty link has no text. -/
theorem text_eq_nil_of_empty? {line : Text} {row col : Nat} {link : Link}
    (h : empty? line row col = some link) : link.text = [] := by
  simp only [empty?, Option.ite_none_right_eq_some, Option.some.injEq] at h
  rw [← h.2]

/-- The link at a column has some text exactly when it is around the column. -/
theorem at?_eq_some_and_text_ne_iff {line : Text} {row col : Nat} {link : Link} :
    at? line row col = some link ∧ link.text ≠ [] ↔ containing? line row col = some link := by
  constructor
  · rintro ⟨hat, hne⟩
    rcases Option.or_eq_some_iff.mp hat with hinside | ⟨-, hempty⟩
    · exact hinside
    · exact absurd (text_eq_nil_of_empty? hempty) hne
  · intro hinside
    exact ⟨by rw [at?, hinside, Option.some_or], text_ne_nil_of_containing? hinside⟩

/-- The link at a point has some text exactly when it stands for the first token of the document
that holds the point. -/
theorem atPoint?_eq_some_and_text_ne_iff {text : Text} {point : Point} {link : Link} :
    atPoint? text point = some link ∧ link.text ≠ [] ↔
      ((scan text).find? (·.Holds point)).map Occurrence.link = some link := by
  rw [find?_scan, atPoint?]
  cases lineAt? text point.line with
  | none => simp
  | some line => exact at?_eq_some_and_text_ne_iff

/-- There is a link with some text at a point exactly when some token of the document holds the
point. The text of the link and its place are then those of the first such token, without the
brackets. -/
theorem atPoint?_iff_scan (text : Text) (point : Point) :
    ((∃ link, atPoint? text point = some link ∧ link.text ≠ []) ↔
      ∃ occurrence ∈ scan text, occurrence.Holds point) ∧
    ∀ link, atPoint? text point = some link ∧ link.text ≠ [] ↔
      ∃ earlier occurrence later, scan text = earlier ++ occurrence :: later ∧
        occurrence.Holds point ∧ (∀ other ∈ earlier, ¬other.Holds point) ∧
        link = ⟨occurrence.text, occurrence.inside⟩ := by
  constructor
  · simp only [atPoint?_eq_some_and_text_ne_iff]
    constructor
    · rintro ⟨link, hlink⟩
      obtain ⟨occurrence, hfind, -⟩ := Option.map_eq_some_iff.mp hlink
      have hholds := List.find?_some hfind
      exact ⟨occurrence, List.mem_of_find?_eq_some hfind, of_decide_eq_true hholds⟩
    · rintro ⟨occurrence, hmem, hholds⟩
      have hsome : ((scan text).find? (·.Holds point)).isSome :=
        List.find?_isSome.mpr ⟨occurrence, hmem, decide_eq_true hholds⟩
      obtain ⟨first, hfirst⟩ := Option.isSome_iff_exists.mp hsome
      exact ⟨first.link, by rw [hfirst, Option.map_some]⟩
  · intro link
    rw [atPoint?_eq_some_and_text_ne_iff, Option.map_eq_some_iff]
    constructor
    · rintro ⟨occurrence, hfind, rfl⟩
      obtain ⟨hholds, earlier, later, hscan, hearlier⟩ := List.find?_eq_some_iff_append.mp hfind
      exact ⟨earlier, occurrence, later, hscan, of_decide_eq_true hholds,
        fun other hother => by simpa using hearlier other hother, rfl⟩
    · rintro ⟨earlier, occurrence, later, hscan, hholds, hearlier, rfl⟩
      refine ⟨occurrence, List.find?_eq_some_iff_append.mpr ⟨decide_eq_true hholds, ?_⟩, rfl⟩
      exact ⟨earlier, later, hscan, fun other hother => by simpa using hearlier other hother⟩

/-- Of two tokens that touch at a column, the cursor there is at the first. -/
example : atPoint? "x\r\n[[a]][[b]]\r\n".toList ⟨1, 5⟩ = some ⟨['a'], .onLine 1 2 3⟩ := by decide

end LinkedNotes.Link
