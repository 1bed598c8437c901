import LinkedNotes.Link.Cursor
import LinkedNotes.Text.Stored

/-!
# Links of a stored text

The searches for links on the UTF-8 form of a document: tokens are found at octet offsets, lines are
cut there, and the lines and columns of what is found are words of 32 bits. The outer option of an
answer is empty when a step fails, the inner one when there is no link.
-/

namespace LinkedNotes

/-- Octet offset of the last occurrence of a text that is not empty. -/
def Text.lastOffset? (needle : Text) : Text → Option Nat
  | [] => none
  | c :: rest =>
    match lastOffset? needle rest with
    | some offset => some (c.utf8Size + offset)
    | none => if needle.isPrefixOf (c :: rest) then some 0 else none

namespace Stored

/-- The link that a cursor is at. -/
structure Link where
  /-- The text of the link, as it was written. -/
  text : Text
  /-- The place of that text in the document. -/
  range : TextRange
  deriving DecidableEq, Repr

/-- A link token in a document. -/
structure Occurrence where
  /-- The range of the token with its brackets. -/
  range : TextRange
  /-- The text between the brackets. -/
  text : Text
  deriving DecidableEq, Repr

/-- The link with the range that its words name. -/
def Link.toLink (link : Link) : LinkedNotes.Link :=
  ⟨link.text, link.range.toRange⟩

/-- The token with the range that its words name. -/
def Occurrence.toOccurrence (occurrence : Occurrence) : Link.Occurrence :=
  ⟨occurrence.range.toRange, occurrence.text⟩

/-- A token with the numbers of its range cut down to words. -/
def Occurrence.ofOccurrence (occurrence : Link.Occurrence) : Occurrence :=
  ⟨.ofRange occurrence.range, occurrence.text⟩

/-- The octet offsets at which a token starts and ends. -/
structure Span where
  /-- Offset of the brackets that open. -/
  start : Nat
  /-- Offset behind the brackets that close. -/
  stop : Nat
  deriving DecidableEq, Repr

/-- The spans of the tokens of the rest of a line that starts at an offset, after passing over the
`skip` characters that still belong to the last token. -/
def spansFrom : Nat → Nat → Text → List Span
  | _, _, [] => []
  | skip + 1, offset, c :: rest => spansFrom skip (offset + c.utf8Size) rest
  | 0, offset, c :: rest =>
    match Link.textAtStart? (c :: rest) with
    | some inner =>
      ⟨offset, offset + Text.size (Link.opening ++ inner ++ Link.closing)⟩ ::
        spansFrom (inner.length + 3) (offset + c.utf8Size) rest
    | none => spansFrom 0 (offset + c.utf8Size) rest

/-- The text of a token of a line without its brackets. -/
def textOf? (line : Text) (span : Span) : Option Text := do
  let token ← Text.between? line span.start span.stop
  if Text.size token < Text.size Link.closing then none
  else Text.between? token (Text.size Link.opening) (Text.size token - Text.size Link.closing)

/-! ## All links -/

/-- The token of a span on a line. -/
def occurrence? (line : Text) (row : UInt32) (span : Span) : Option Occurrence := do
  let text ← textOf? line span
  let start ← offsetToCol? line span.start
  let stop ← offsetToCol? line span.stop
  return ⟨.onLine row start stop, text⟩

/-- The link tokens of numbered lines. -/
def scanLines? : Nat → List Text → Option (List Occurrence)
  | _, [] => some []
  | n, raw :: rest => do
    let line := Text.dropReturn raw
    let found ← (spansFrom 0 0 line).mapM (occurrence? line (.ofNat n))
    return found ++ (← scanLines? (n + 1) rest)

/-- The link tokens of a document, in the order in which they stand there. -/
def scan? (text : Text) : Option (List Occurrence) :=
  scanLines? 0 (Text.splitOn '\n' text)

/-! ## The link under the cursor -/

/-- The link of the first span that holds a column; its ends belong to it. -/
def containing? (line : Text) (row col : UInt32) : List Span → Option (Option Link)
  | [] => some none
  | span :: rest => do
    let start ← offsetToCol? line span.start
    let stop ← offsetToCol? line span.stop
    if start ≤ col ∧ col ≤ stop then
      let text ← textOf? line span
      return some ⟨text, .onLine row (← plus? start 2) (← minus? stop 2)⟩
    else containing? line row col rest

/-- The empty link at a column that comes right after opening brackets, at the end of the line or
before closing brackets. -/
def empty? (line : Text) (row col : UInt32) : Option (Option Link) := do
  let (before, after) ← Text.cutAtOctet? line (← colToOffset? line col)
  if Link.opening.isSuffixOf before ∧ (after = [] ∨ Link.closing.isPrefixOf after) then
    return some ⟨[], .onLine row col col⟩
  else return none

/-- The link that was opened before a column and not closed up to it. -/
def open? (line : Text) (row col : UInt32) : Option (Option Link) := do
  let cursor ← colToOffset? line col
  let (before, _) ← Text.cutAtOctet? line cursor
  match Text.lastOffset? Link.opening before with
  | none => return none
  | some offset =>
    let (_, word) ← Text.cutAtOctet? before (offset + Text.size Link.opening)
    if Text.containsText Link.closing word then return none
    else
      let start ← offsetToCol? line (offset + Text.size Link.opening)
      let stop ← offsetToCol? line cursor
      return some ⟨word, .onLine row start stop⟩

/-- The link at a column of a line: a token around it, else an empty link. -/
def at? (line : Text) (row col : UInt32) : Option (Option Link) := do
  if let some link ← containing? line row col (spansFrom 0 0 line) then return some link
  empty? line row col

/-- The link at a column of a line, or one that is still being typed there. -/
def atOrOpen? (line : Text) (row col : UInt32) : Option (Option Link) := do
  if let some link ← at? line row col then return some link
  open? line row col

/-- The link at a point of a document. -/
def atPoint? (text : Text) (point : Point) : Option (Option Link) :=
  match Text.lineAt? text point.line.toNat with
  | none => some none
  | some line => at? line point.line point.col

/-- The link at a point of a document, or one that is still being typed there. -/
def atPointOrOpen? (text : Text) (point : Point) : Option (Option Link) :=
  match Text.lineAt? text point.line.toNat with
  | none => some none
  | some line => atOrOpen? line point.line point.col

end Stored
end LinkedNotes
