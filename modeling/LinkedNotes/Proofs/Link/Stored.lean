import LinkedNotes.Link.Stored
import LinkedNotes.Proofs.Link.Place
import LinkedNotes.Proofs.Link.Scan
import LinkedNotes.Proofs.Link.Typing
import LinkedNotes.Proofs.Text.Stored

/-!
# Links of a stored text

The searches for links cut lines at octet offsets and count in words, and each step may fail. Main
statements: the search for all links never does, and it gives those that the search on characters
gives, with their numbers cut down to words; the search for the link at a point does not fail either
where the columns of the line fit into words, it gives the link that the search on characters gives,
and the range of this link is on the line of the point and covers the text of the link. So what
holds of links at numbers of any size is carried over to those at words.
-/

namespace LinkedNotes

namespace Link

open Text

/-! ## What the range of a link covers -/

/-- The last opening brackets of a text stand where it is cut after them. -/
theorem cutAfterOpening?_cases (text : Text) :
    (cutAfterOpening? text = none ∧ lastOffset? opening text = none) ∨
      ∃ before word, cutAfterOpening? text = some (before ++ opening, word) ∧
        lastOffset? opening text = some (size before) ∧ text = before ++ opening ++ word := by
  induction text with
  | nil => exact .inl ⟨rfl, rfl⟩
  | cons c rest ih =>
    rcases ih with ⟨hcut, hlast⟩ | ⟨before, word, hcut, hlast, rfl⟩
    · by_cases hstarts : opening.isPrefixOf (c :: rest) = true
      · obtain ⟨word, hword⟩ := List.isPrefixOf_iff_prefix.mp hstarts
        refine .inr ⟨[], word, ?_, ?_, by simpa using hword.symm⟩
        · have hdrop : rest.drop 1 = word := by
            simpa [opening] using congrArg (List.drop 2) hword.symm
          rw [cutAfterOpening?, hcut, hdrop]
          exact if_pos hstarts
        · rw [lastOffset?, hlast]
          exact if_pos hstarts
      · refine .inl ⟨?_, ?_⟩
        · rw [cutAfterOpening?, hcut]
          exact if_neg hstarts
        · rw [lastOffset?, hlast]
          exact if_neg hstarts
    · refine .inr ⟨c :: before, word, ?_, ?_, by simp⟩
      · rw [cutAfterOpening?, hcut, List.cons_append]
      · rw [lastOffset?, hlast, size]

variable {text line : Text} {row col : Nat} {link : Link}

end Link

namespace Stored

open Text

/-! ## Tokens at octets -/

/-- A span holds the octets of a token that stands on a line. -/
def Spans (line : Text) (token : Link.Token) (span : Span) : Prop :=
  ∃ before after, line = before ++ (Link.opening ++ token.text ++ Link.closing) ++ after ∧
    token.col = width before ∧
      span = ⟨size before, size (before ++ (Link.opening ++ token.text ++ Link.closing))⟩

/-- The spans of a line hold its tokens, one by one. -/
theorem forall₂_spansFrom (skip : Nat) (before rest : Text) :
    List.Forall₂ (Spans (before ++ rest)) (Link.tokensFrom skip (width before) rest)
      (spansFrom skip (size before) rest) := by
  induction rest generalizing skip before with
  | nil => cases skip <;> exact .nil
  | cons c rest ih =>
    have behind (skip : Nat) : List.Forall₂ (Spans (before ++ c :: rest))
        (Link.tokensFrom skip (width before + units c) rest)
        (spansFrom skip (size before + c.utf8Size) rest) := by
      simpa [width, size] using ih skip (before ++ [c])
    cases skip with
    | succ skip => exact behind skip
    | zero =>
      rw [Link.tokensFrom, spansFrom]
      cases hstart : Link.textAtStart? (c :: rest) with
      | none => exact behind 0
      | some inner =>
        obtain ⟨-, -, more, hmore⟩ := Link.textAtStart?_eq_some_iff.mp hstart
        refine .cons ⟨before, more, ?_, rfl, ?_⟩ (behind _)
        · rw [hmore]
          simp
        · rw [size_append before]

/-- The spans of a whole line hold its tokens. -/
theorem forall₂_spans (line : Text) :
    List.Forall₂ (Spans line) (Link.tokens line) (spansFrom 0 0 line) :=
  forall₂_spansFrom 0 [] line

/-- A token that stands behind a part of a line ends on the line. -/
theorem endCol_le_width {before : Text} {token : Link.Token} (h : token.col = width before)
    (after : Text) :
    token.endCol ≤ width (before ++ (Link.opening ++ token.text ++ Link.closing) ++ after) := by
  rw [Link.Token.endCol_eq, h, ← width_append]
  exact width_le_of_startsLine (List.prefix_append _ after)

namespace Spans

variable {line : Text} {token : Link.Token} {span : Span}

/-- The columns of a token are columns of its line. -/
theorem endCol_le (h : Spans line token span) : token.endCol ≤ width line := by
  obtain ⟨before, after, rfl, hcol, -⟩ := h
  exact endCol_le_width hcol after

/-- The column where a token starts, cut down to a word. -/
theorem offsetToCol?_start (h : Spans line token span) :
    offsetToCol? line span.start = some (.ofNat token.col) := by
  obtain ⟨before, after, rfl, hcol, rfl⟩ := h
  have hstart := offsetToCol?_size before (Link.opening ++ token.text ++ Link.closing ++ after)
  rwa [← List.append_assoc, ← hcol] at hstart

/-- The column behind a token, cut down to a word. -/
theorem offsetToCol?_stop (h : Spans line token span) :
    offsetToCol? line span.stop = some (.ofNat token.endCol) := by
  obtain ⟨before, after, rfl, hcol, rfl⟩ := h
  have hstop := offsetToCol?_size (before ++ (Link.opening ++ token.text ++ Link.closing)) after
  rwa [width_append before, ← hcol, ← Link.Token.endCol_eq] at hstop

/-- The text of a token is read without a failing step. -/
theorem textOf?_eq (h : Spans line token span) : textOf? line span = some token.text := by
  obtain ⟨before, after, rfl, -, rfl⟩ := h
  have htoken := between?_size before (Link.opening ++ token.text ++ Link.closing) after
  have htext := between?_size Link.opening token.text Link.closing
  have hlong : ¬size (Link.opening ++ token.text ++ Link.closing) < size Link.closing := by
    rw [size_append]
    omega
  have hlength : size (Link.opening ++ token.text ++ Link.closing) - size Link.closing =
      size (Link.opening ++ token.text) := by
    rw [size_append, Nat.add_sub_cancel]
  simp only [textOf?, htoken, Option.bind_eq_bind, Option.bind_some, hlong, if_false, hlength,
    htext]

/-- A token is found with the numbers of its range cut down to words. -/
theorem occurrence?_eq (h : Spans line token span) (row : Nat) :
    occurrence? line (.ofNat row) span = some (.ofOccurrence (token.onLine row)) := by
  simp only [occurrence?, h.textOf?_eq, h.offsetToCol?_start, h.offsetToCol?_stop,
    Option.bind_eq_bind, Option.bind_some]
  rfl

end Spans

/-! ## All links -/

/-- The tokens of a line are found without a failing step. -/
theorem mapM_occurrence?_eq {line : Text} {found : List Link.Token} {spans : List Span}
    (h : List.Forall₂ (Spans line) found spans) (row : Nat) :
    spans.mapM (occurrence? line (.ofNat row)) =
      some (found.map fun token => .ofOccurrence (token.onLine row)) := by
  induction h with
  | nil => rfl
  | cons hfirst _ ih =>
    rw [List.mapM_cons, hfirst.occurrence?_eq, ih]
    rfl

/-- The tokens of numbered lines are found without a failing step. -/
theorem scanLines?_eq (n : Nat) (lines : List Text) :
    scanLines? n lines = some ((Link.scanLines n lines).map .ofOccurrence) := by
  induction lines generalizing n with
  | nil => rfl
  | cons raw rest ih =>
    have hfirst := mapM_occurrence?_eq (forall₂_spans (dropReturn raw)) n
    simp only [scanLines?, hfirst, ih, Option.bind_eq_bind, Option.bind_some, Link.scanLines,
      List.map_append, List.map_map]
    rfl

/-- The tokens of a document are found without a failing step, with the numbers of their ranges cut
down to words. -/
theorem scan?_eq (text : Text) : scan? text = some ((Link.scan text).map .ofOccurrence) :=
  scanLines?_eq 0 _

/-- The columns of a token of a line are columns of the line. -/
theorem endCol_le_of_mem_tokens {line : Text} {token : Link.Token} (h : token ∈ Link.tokens line) :
    token.endCol ≤ width line := by
  obtain ⟨before, after, -, rfl, hcol, -⟩ := Link.exists_of_mem_tokensFrom h
  simpa using endCol_le_width (hcol.trans (Nat.zero_add _)) after

/-- A range on one line with small numbers is named by their words. -/
theorem toRange_ofRange_onLine {row start stop : Nat} (hrow : row < UInt32.size)
    (hstart : start < UInt32.size) (hstop : stop < UInt32.size) :
    (TextRange.ofRange (.onLine row start stop)).toRange = .onLine row start stop := by
  simp only [TextRange.toRange, TextRange.ofRange, LinkedNotes.TextRange.onLine,
    @Point.toPoint_ofPoint ⟨row, start⟩ hrow hstart, @Point.toPoint_ofPoint ⟨row, stop⟩ hrow hstop]

/-- The numbers of the range of a token fit into words with those of the document. -/
theorem toOccurrence_ofOccurrence {text : Text} (hfits : Fits text) {occurrence : Link.Occurrence}
    (h : occurrence ∈ Link.scan text) :
    (Occurrence.ofOccurrence occurrence).toOccurrence = occurrence := by
  obtain ⟨row, line, token, hline, htoken, rfl⟩ := Link.mem_scan_iff.mp h
  obtain ⟨raw, hraw, rfl⟩ := Option.map_eq_some_iff.mp hline
  have hrow : row < UInt32.size := (List.getElem?_eq_some_iff.mp hraw).1.trans_le hfits.lines
  have hend : token.endCol < UInt32.size := calc
    token.endCol ≤ width (dropReturn raw) := endCol_le_of_mem_tokens htoken
    _ ≤ width raw := width_le_of_startsLine (dropReturn_startsLine raw)
    _ < UInt32.size := hfits.rows row raw hraw
  have hstart : token.col < UInt32.size := by
    unfold Link.Token.endCol at hend
    omega
  exact congrArg (Link.Occurrence.mk · token.text) (toRange_ofRange_onLine hrow hstart hend)

/-- When a document fits into words, the numbers of its tokens are not changed by being cut down. -/
theorem map_ofOccurrence {text : Text} (hfits : Fits text) :
    ((Link.scan text).map Occurrence.ofOccurrence).map Occurrence.toOccurrence =
      Link.scan text := by
  rw [List.map_map]
  refine (List.map_congr_left fun occurrence h => ?_).trans (List.map_id _)
  exact toOccurrence_ofOccurrence hfits h

/-! ## The link under the cursor -/

/-- Whether an answer comes without a failing step, and its words name what is expected. -/
def Gives (answer : Option (Option Link)) (expected : Option LinkedNotes.Link) : Prop :=
  answer.map (Option.map Link.toLink) = some expected

/-- A second search is only made when the first one gives nothing. -/
theorem gives_or {first second : Option (Option Link)} {one two : Option LinkedNotes.Link}
    (hfirst : Gives first one) (hsecond : Gives second two) :
    Gives (do
      if let some link ← first then return some link
      second) (one.or two) := by
  obtain ⟨answer, rfl, rfl⟩ := Option.map_eq_some_iff.mp hfirst
  cases answer with
  | none => exact hsecond
  | some link => rfl

section

variable {line : Text} (hline : width line < UInt32.size)
include hline

/-- The first token either holds the column and is the answer, or the search goes on behind it. -/
theorem containing?_cons {token : Link.Token} {span : Span} (h : Spans line token span)
    (row col : UInt32) (rest : List Span) :
    if token.col ≤ col.toNat ∧ col.toNat ≤ token.endCol then
      Gives (containing? line row col (span :: rest))
        (some ⟨token.text, .onLine row.toNat (token.col + 2) (token.endCol - 2)⟩)
    else containing? line row col (span :: rest) = containing? line row col rest := by
  have hends : token.col + 4 ≤ token.endCol := by
    unfold Link.Token.endCol
    omega
  have hlast := h.endCol_le
  have hcol : (UInt32.ofNat token.col).toNat = token.col := toNat_ofNat (by omega)
  have hend : (UInt32.ofNat token.endCol).toNat = token.endCol := toNat_ofNat (by omega)
  have hstart : (UInt32.ofNat (token.col + 2)).toNat = token.col + 2 := toNat_ofNat (by omega)
  have hstop : (UInt32.ofNat (token.endCol - 2)).toNat = token.endCol - 2 :=
    toNat_ofNat (by omega)
  have htwo : (2 : UInt32).toNat = 2 := rfl
  have hplus : plus? (.ofNat token.col) 2 = some (.ofNat (token.col + 2)) :=
    plus?_eq_some_iff.mpr (by omega)
  have hminus : minus? (.ofNat token.endCol) 2 = some (.ofNat (token.endCol - 2)) :=
    minus?_eq_some_iff.mpr (by omega)
  have hholds : UInt32.ofNat token.col ≤ col ∧ col ≤ UInt32.ofNat token.endCol ↔
      token.col ≤ col.toNat ∧ col.toNat ≤ token.endCol := by
    rw [UInt32.le_iff_toNat_le, UInt32.le_iff_toNat_le, hcol, hend]
  simp only [containing?, h.offsetToCol?_start, h.offsetToCol?_stop, h.textOf?_eq, hplus, hminus,
    Option.bind_eq_bind, Option.bind_some, hholds]
  split
  · simp only [Gives, Option.pure_def, Option.map_some, Link.toLink, TextRange.toRange,
      TextRange.onLine, Point.toPoint, LinkedNotes.TextRange.onLine, hstart, hstop]
  · rfl

/-- The search in spans that hold tokens gives the first token that holds the column. -/
theorem gives_containing?_of_spans {found : List Link.Token} {spans : List Span}
    (h : List.Forall₂ (Spans line) found spans) (row col : UInt32) :
    Gives (containing? line row col spans)
      ((found.find? fun token => token.col ≤ col.toNat && col.toNat ≤ token.endCol).map fun token =>
        ⟨token.text, .onLine row.toNat (token.col + 2) (token.endCol - 2)⟩) := by
  induction h with
  | nil => rfl
  | @cons token span found spans hfirst _ ih =>
    have hcons := containing?_cons hline hfirst row col spans
    rw [List.find?_cons, ← Bool.decide_and]
    by_cases hholds : token.col ≤ col.toNat ∧ col.toNat ≤ token.endCol
    · rw [if_pos hholds] at hcons
      rw [decide_eq_true hholds]
      exact hcons
    · rw [if_neg hholds] at hcons
      rw [decide_eq_false hholds, hcons]
      exact ih

/-- The token around a column is found without a failing step. -/
theorem gives_containing? (row col : UInt32) :
    Gives (containing? line row col (spansFrom 0 0 line))
      (Link.containing? line row.toNat col.toNat) :=
  gives_containing?_of_spans hline (forall₂_spans line) row col

/-- The empty link is found without a failing step. -/
theorem gives_empty? (row col : UInt32) :
    Gives (empty? line row col) (Link.empty? line row.toNat col.toNat) := by
  simp only [empty?, Link.empty?, colToOffset?_eq (.of_width_lt hline col), cutAtOctet?_colToOffset,
    Option.bind_eq_bind, Option.bind_some, Option.pure_def]
  split <;> rfl

/-- The link that is being typed is found without a failing step. -/
theorem gives_open? (row col : UInt32) :
    Gives (open? line row col) (Link.open? line row.toNat col.toNat) := by
  obtain ⟨before, after, hcut⟩ :
      ∃ before after, cutAtCol col.toNat line = (before, after) := ⟨_, _, rfl⟩
  have hparts : line = before ++ after := by
    have hjoin := cutAtCol_append col.toNat line
    rw [hcut] at hjoin
    exact hjoin.symm
  have hcursor : colToOffset? line col = some (size before) := by
    rw [colToOffset?_eq (.of_width_lt hline col), colToOffset, hcut]
  have hbefore : cutAtOctet? line (size before) = some (before, after) :=
    hparts ▸ cutAtOctet?_size before after
  have hstop : offsetToCol? line (size before) = some (.ofNat (width before)) :=
    hparts ▸ offsetToCol?_size before after
  have hwidth : width before ≤ width line := width_le_of_startsLine ⟨after, hparts.symm⟩
  simp only [open?, Link.open?, hcursor, hbefore, hcut, Option.bind_eq_bind, Option.bind_some,
    Option.pure_def]
  rcases Link.cutAfterOpening?_cases before with
    ⟨hnone, hlast⟩ | ⟨start, word, hsome, hlast, hword⟩
  · simp only [hnone, hlast]
    rfl
  · have hoffset : size start + size Link.opening = size (start ++ Link.opening) := by
      rw [size_append]
    have hrest := cutAtOctet?_size (start ++ Link.opening) word
    have hstart := offsetToCol?_size (start ++ Link.opening) (word ++ after)
    have hless : width (start ++ Link.opening) ≤ width before :=
      width_le_of_startsLine ⟨word, hword.symm⟩
    rw [← hword] at hrest
    rw [← List.append_assoc, ← hword, ← hparts] at hstart
    simp only [hsome, hlast, hoffset, hrest, hstart, hstop, Option.bind_some]
    split
    · rfl
    · simp only [Gives, Option.map_some, Link.toLink, TextRange.toRange, TextRange.onLine,
        Point.toPoint, LinkedNotes.TextRange.onLine, toNat_ofNat (hwidth.trans_lt hline),
        toNat_ofNat ((hless.trans hwidth).trans_lt hline)]

/-- The link at a column is found without a failing step. -/
theorem gives_at? (row col : UInt32) :
    Gives (at? line row col) (Link.at? line row.toNat col.toNat) :=
  gives_or (gives_containing? hline row col) (gives_empty? hline row col)

/-- So is one that is still being typed. -/
theorem gives_atOrOpen? (row col : UInt32) :
    Gives (atOrOpen? line row col) (Link.atOrOpen? line row.toNat col.toNat) :=
  gives_or (gives_at? hline row col) (gives_open? hline row col)

end

section

variable {text : Text} {point : Point} (hrow : RowFits text point.line.toNat)
include hrow

/-- The columns of a line without its terminator fit into words with those of the whole line. -/
theorem width_lt_of_lineAt? {line : Text} (h : lineAt? text point.line.toNat = some line) :
    width line < UInt32.size := by
  obtain ⟨raw, hraw, rfl⟩ := Option.map_eq_some_iff.mp h
  exact (width_le_of_startsLine (dropReturn_startsLine raw)).trans_lt (hrow raw hraw)

/-- The link at a point is found without a failing step. -/
theorem gives_atPoint? : Gives (atPoint? text point) (Link.atPoint? text point.toPoint) := by
  simp only [atPoint?, Link.atPoint?, Point.toPoint]
  cases hline : lineAt? text point.line.toNat with
  | none => rfl
  | some line => exact gives_at? (width_lt_of_lineAt? hrow hline) point.line point.col

end

/-- Words name the same link only if they are the same. -/
theorem Link.toLink_inj {link other : Link} : link.toLink = other.toLink ↔ link = other := by
  constructor
  · intro h
    obtain ⟨text, start, stop⟩ := link
    obtain ⟨text', start', stop'⟩ := other
    obtain ⟨htext, hrange⟩ := LinkedNotes.Link.mk.inj h
    obtain ⟨hstart, hstop⟩ := LinkedNotes.TextRange.mk.inj hrange
    rw [Point.toPoint_inj] at hstart hstop
    simp only at htext hstart hstop
    rw [htext, hstart, hstop]
  · exact congrArg _

/-- In a document that fits into words, there is a link with some text at a point exactly when some
token that is found holds the point, and it is the link of the first such token. -/
theorem atPoint?_eq_find? {text : Text} (hfits : Fits text) (point : Point) :
    ∃ found answer, scan? text = some found ∧ atPoint? text point = some answer ∧
      ∀ link, answer = some link ∧ link.text ≠ [] ↔
        (found.find? (·.toOccurrence.Holds point.toPoint)).map (·.toOccurrence.link) =
          some link.toLink := by
  obtain ⟨answer, hanswer, hexpected⟩ :=
    Option.map_eq_some_iff.mp (gives_atPoint? (hfits.rows point.line.toNat))
  refine ⟨_, answer, scan?_eq text, hanswer, fun link => ?_⟩
  have hfind := @Link.atPoint?_eq_some_and_text_ne_iff text point.toPoint link.toLink
  rw [← map_ofOccurrence hfits, List.find?_map, Option.map_map, ← hexpected] at hfind
  refine Iff.trans (and_congr_left fun _ => ?_) hfind
  rw [Option.map_eq_some_iff]
  constructor
  · rintro rfl
    exact ⟨link, rfl, rfl⟩
  · rintro ⟨other, rfl, hother⟩
    rw [Link.toLink_inj.mp hother]

/-- On a line that fits into words, the link behind a word that is typed after brackets is found
without a failing step, starts behind the brackets, and its text starts with the word. -/
theorem atOrOpen?_behind_word {before word after : Text} (hbefore : Link.Settled before)
    (hopen : '[' ∉ word) (hclose : ']' ∉ word)
    (hfits : width (before ++ Link.opening ++ word ++ after) < UInt32.size) (row : UInt32) :
    ∃ link, atOrOpen? (before ++ Link.opening ++ word ++ after) row
        (.ofNat (width before + 2 + width word)) = some (some link) ∧
      link.range.start.toPoint = ⟨row.toNat, width before + 2⟩ ∧ word <+: link.text := by
  have hcol : width before + 2 + width word < UInt32.size := by
    have hopening : width Link.opening = 2 := rfl
    rw [width_append, width_append, width_append, hopening] at hfits
    omega
  have hgives := gives_atOrOpen? hfits row (.ofNat (width before + 2 + width word))
  obtain ⟨text, stop, hlink, hword⟩ :=
    Link.exists_atOrOpen?_eq hbefore hopen hclose after row.toNat
  rw [toNat_ofNat hcol, hlink] at hgives
  obtain ⟨answer, hanswer, hexpected⟩ := Option.map_eq_some_iff.mp hgives
  obtain ⟨link, rfl, hsame⟩ := Option.map_eq_some_iff.mp hexpected
  obtain ⟨htext, hrange⟩ := LinkedNotes.Link.mk.inj hsame
  exact ⟨link, hanswer, congrArg (·.start) hrange, htext ▸ hword⟩

end Stored
end LinkedNotes
