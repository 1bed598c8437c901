import LinkedNotes.Text.Basic

/-!
# Positions in a document

A point is a line and a column; columns count UTF-16 units. Octet offsets count the UTF-8 form.
Both always name places between two characters: a column inside a character is moved past it, and
an offset inside a character has no column. The numbers may be of any size here; how they are
counted in words of 32 bits is a matter of `LinkedNotes.Text.Stored`.
-/

namespace LinkedNotes

/-- A place in a document, both parts counted from zero, however large. -/
structure Point where
  /-- Number of line feeds before the place. -/
  line : Nat
  /-- Number of UTF-16 units between the start of the line and the place. -/
  col : Nat
  deriving DecidableEq, Repr

/-- Two places in a document. -/
structure TextRange where
  /-- Where the range starts. -/
  start : Point
  /-- Where the range ends. -/
  stop : Point
  deriving DecidableEq, Repr

/-- A range on one line. -/
def TextRange.onLine (line startCol stopCol : Nat) : TextRange :=
  ⟨⟨line, startCol⟩, ⟨line, stopCol⟩⟩

namespace Text

/-- A text cut at its first place whose column is at least `col`, or at its end. -/
def cutAtCol : Nat → Text → Text × Text
  | _, [] => ([], [])
  | 0, text => ([], text)
  | col + 1, c :: rest =>
    let (before, after) := cutAtCol (col + 1 - units c) rest
    (c :: before, after)

/-- Octet offset in a line of the place that a column names. -/
def colToOffset (line : Text) (col : Nat) : Nat :=
  size (cutAtCol col line).1

/-- Column of an octet offset in a line; an offset inside a character or past the end has none. -/
def offsetToCol? : Text → Nat → Option Nat
  | _, 0 => some 0
  | [], _ + 1 => none
  | c :: rest, offset + 1 =>
    if offset + 1 < c.utf8Size then none
    else (offsetToCol? rest (offset + 1 - c.utf8Size)).map (units c + ·)

/-- A line of a text without its terminator. -/
def lineAt? (text : Text) (line : Nat) : Option Text :=
  (splitOn '\n' text)[line]?.map dropReturn

/-- What follows the `n`-th line feed of a text, if it has so many. -/
def afterFeeds : Nat → Text → Option Text
  | 0, text => some text
  | _ + 1, [] => none
  | n + 1, c :: rest => if c = '\n' then afterFeeds n rest else afterFeeds (n + 1) rest

/-- A text cut at a column of its first line; the line ends before its line feed. -/
def cutInLine : Nat → Text → Text × Text
  | _, [] => ([], [])
  | 0, text => ([], text)
  | col + 1, c :: rest =>
    if c = '\n' then ([], c :: rest)
    else
      let (before, after) := cutInLine (col + 1 - units c) rest
      (c :: before, after)

/-- Octet offset of a point. A column past the end of its line names the end of the line, and a
line that the text does not have has no offset. -/
def pointToOffset? (text : Text) (point : Point) : Option Nat :=
  (afterFeeds point.line text).map fun rest =>
    size text - size rest + size (cutInLine point.col rest).1

/-- The text after its last line feed. -/
def lastLine (text : Text) : Text :=
  (text.reverse.takeWhile (· ≠ '\n')).reverse

/-- Where a text that is inserted at a point ends. -/
def endOf (start : Point) (inserted : Text) : Point :=
  match inserted.count '\n' with
  | 0 => ⟨start.line, start.col + width inserted⟩
  | feeds + 1 => ⟨start.line + (feeds + 1), width (lastLine inserted)⟩

/-- The longest start of a text that has at most `n` octets, and the rest. -/
def cutAtOffset : Nat → Text → Text × Text
  | _, [] => ([], [])
  | n, c :: rest =>
    if c.utf8Size ≤ n then
      let (before, after) := cutAtOffset (n - c.utf8Size) rest
      (c :: before, after)
    else ([], c :: rest)

/-- The text between two octet offsets. -/
def slice (text : Text) (start stop : Nat) : Text :=
  (cutAtOffset (stop - start) (cutAtOffset start text).2).1

/-- The text that a range covers, whichever of its ends comes first; nothing when one of its
lines is missing. -/
def inRange? (text : Text) (range : TextRange) : Option Text := do
  let start ← pointToOffset? text range.start
  let stop ← pointToOffset? text range.stop
  return slice text (min start stop) (max start stop)

/-- Cutting at a column loses nothing. -/
theorem cutAtCol_append (col : Nat) (text : Text) :
    (cutAtCol col text).1 ++ (cutAtCol col text).2 = text := by
  induction text generalizing col with
  | nil => simp [cutAtCol]
  | cons c rest ih =>
    cases col with
    | zero => simp [cutAtCol]
    | succ n => simp [cutAtCol, ih]

/-- Cutting at a column of the first line loses nothing. -/
theorem cutInLine_append (col : Nat) (text : Text) :
    (cutInLine col text).1 ++ (cutInLine col text).2 = text := by
  induction text generalizing col with
  | nil => simp [cutInLine]
  | cons c rest ih =>
    cases col with
    | zero => simp [cutInLine]
    | succ n =>
      simp only [cutInLine]
      split <;> simp [ih]

/-- Cutting at an offset loses nothing. -/
theorem cutAtOffset_append (n : Nat) (text : Text) :
    (cutAtOffset n text).1 ++ (cutAtOffset n text).2 = text := by
  induction text generalizing n with
  | nil => simp [cutAtOffset]
  | cons c rest ih =>
    simp only [cutAtOffset]
    split <;> simp [ih]

end Text
end LinkedNotes
