import LinkedNotes.Text.Position

/-!
# Positions in a stored text

A text is stored in its UTF-8 form. An editor names the places in it by words of 32 bits, and it is
cut at octet offsets. This is how the places are counted on that form: a count is cut down to a
word, and a cut inside a character or past the end fails, as does a sum or a difference of words
that is not a word. The outer option of an answer is empty when a step fails, the inner one when
there is no answer.
-/

namespace LinkedNotes

namespace Text

/-- A text cut at an octet offset; fails inside a character and past the end. -/
def cutAtOctet? : Text → Nat → Option (Text × Text)
  | text, 0 => some ([], text)
  | [], _ + 1 => none
  | c :: rest, offset + 1 =>
    if offset + 1 < c.utf8Size then none
    else
      (cutAtOctet? rest (offset + 1 - c.utf8Size)).map fun (before, after) => (c :: before, after)

/-- The text between two octet offsets; fails where a cut fails, and when the first offset is behind
the second. -/
def between? (text : Text) (start stop : Nat) : Option Text := do
  let (before, _) ← cutAtOctet? text stop
  let (_, part) ← cutAtOctet? before start
  return part

/-- The offsets at which the further lines of a text start, which itself starts at an offset. -/
def lineStartsFrom (offset : Nat) : Text → List Nat
  | [] => []
  | c :: rest =>
    if c = '\n' then (offset + 1) :: lineStartsFrom (offset + 1) rest
    else lineStartsFrom (offset + c.utf8Size) rest

/-- The offsets at which the lines of a document start. -/
def lineStarts (text : Text) : List Nat :=
  0 :: lineStartsFrom 0 text

end Text

namespace Stored

/-- A place in a document, both parts as words. -/
structure Point where
  /-- Number of line feeds before the place. -/
  line : UInt32
  /-- Number of UTF-16 units between the start of the line and the place. -/
  col : UInt32
  deriving DecidableEq, Repr

/-- Two places in a document. -/
structure TextRange where
  /-- Where the range starts. -/
  start : Point
  /-- Where the range ends. -/
  stop : Point
  deriving DecidableEq, Repr

/-- A range on one line. -/
def TextRange.onLine (line startCol stopCol : UInt32) : TextRange :=
  ⟨⟨line, startCol⟩, ⟨line, stopCol⟩⟩

/-- The place that two words name. -/
def Point.toPoint (point : Point) : LinkedNotes.Point :=
  ⟨point.line.toNat, point.col.toNat⟩

/-- The range that words name. -/
def TextRange.toRange (range : TextRange) : LinkedNotes.TextRange :=
  ⟨range.start.toPoint, range.stop.toPoint⟩

/-- A place with its numbers cut down to words. -/
def Point.ofPoint (point : LinkedNotes.Point) : Point :=
  ⟨.ofNat point.line, .ofNat point.col⟩

/-- A range with its numbers cut down to words. -/
def TextRange.ofRange (range : LinkedNotes.TextRange) : TextRange :=
  ⟨.ofPoint range.start, .ofPoint range.stop⟩

/-- The sum of two words; fails when it is not a word. -/
def plus? (n m : UInt32) : Option UInt32 :=
  if n.toNat + m.toNat < UInt32.size then some (n + m) else none

/-- The difference of two words; fails when it is not a word. -/
def minus? (n m : UInt32) : Option UInt32 :=
  if m ≤ n then some (n - m) else none

/-- Octets up to the first place of a text whose column is at least `col`, or to the first character
that ends the search. The columns of the text are counted on from `current`. -/
def reach? (ends : Char → Bool) (col : UInt32) : UInt32 → Text → Option Nat
  | _, [] => some 0
  | current, c :: rest =>
    if col ≤ current || ends c then some 0
    else do
      let next ← plus? current (.ofNat (Text.units c))
      return c.utf8Size + (← reach? ends col next rest)

/-- Octet offset in a line of the place that a column names. -/
def colToOffset? (line : Text) (col : UInt32) : Option Nat :=
  reach? (fun _ => false) col 0 line

/-- Column of an octet offset in a line. -/
def offsetToCol? (line : Text) (offset : Nat) : Option UInt32 := do
  let (before, _) ← Text.cutAtOctet? line offset
  return .ofNat (Text.width before)

/-- Octet offset of a point. A column past the end of its line names the end of the line, and a
line that the text does not have has no offset. -/
def pointToOffset? (text : Text) (point : Point) : Option (Option Nat) :=
  match (Text.lineStarts text)[point.line.toNat]? with
  | none => some none
  | some start => do
    let (_, rest) ← Text.cutAtOctet? text start
    return some (start + (← reach? (· == '\n') point.col 0 rest))

/-- The text that a range covers, whichever of its ends comes first; nothing when one of its
lines is missing. -/
def inRange? (text : Text) (range : TextRange) : Option (Option Text) := do
  let some start ← pointToOffset? text range.start | return none
  let some stop ← pointToOffset? text range.stop | return none
  return some (← Text.between? text (min start stop) (max start stop))

/-- Where a text that is inserted at a point ends. -/
def endOf? (start : Point) (inserted : Text) : Option Point :=
  match inserted.count '\n' with
  | 0 => (plus? start.col (.ofNat (Text.width inserted))).map fun col => ⟨start.line, col⟩
  | feeds + 1 =>
    (plus? start.line (.ofNat (feeds + 1))).map fun line =>
      ⟨line, .ofNat (Text.width (Text.lastLine inserted))⟩

/-- A document with another text in a range of it, and where the cursor stands then. Nothing is
replaced when the range starts on a missing line; one that only ends on a missing line reaches to
the end. -/
def replace? (document : Text) (range : TextRange) (inserted : Text) :
    Option (Text × Option Point) := do
  let some start ← pointToOffset? document range.start | return (document, none)
  let stop := (← pointToOffset? document range.stop).getD (Text.size document)
  let (before, _) ← Text.cutAtOctet? document (min start stop)
  let (_, after) ← Text.cutAtOctet? document (max start stop)
  return (before ++ inserted ++ after, some (← endOf? range.start inserted))

end Stored
end LinkedNotes
