import LinkedNotes.Text.Basic

/-!
# Reading YAML by characters

A place in a YAML document: the text that follows, the line and the column. Five characters break
lines; a carriage return with a line feed after it breaks one line.
-/

namespace LinkedNotes.Yaml

/-- Whether a character may stand in a document. -/
def isAllowed (c : Char) : Bool :=
  let n := c.toNat
  n == 0x09 || n == 0x0A || n == 0x0D || (0x20 ≤ n && n ≤ 0x7E) || n == 0x85 ||
    (0xA0 ≤ n && n ≤ 0xD7FF) || (0xE000 ≤ n && n ≤ 0xFFFD) || 0x10000 ≤ n

/-- Whether a character is a space or a tab. -/
def isBlank (c : Char) : Bool :=
  c == ' ' || c == '\t'

/-- Whether a character breaks a line. -/
def isBreak (c : Char) : Bool :=
  c == '\n' || c == '\r' || c == '\u0085' || c == '\u2028' || c == '\u2029'

/-- Whether a character may stand in the name of an anchor. -/
def isWordChar (c : Char) : Bool :=
  c.isAlphanum || c == '_' || c == '-'

/-- A place in a document. -/
structure Cursor where
  /-- The text that follows. -/
  rest : Text
  /-- Number of characters before the place. -/
  index : Nat := 0
  /-- Number of line breaks before the place. -/
  line : Nat := 0
  /-- Number of characters between the start of the line and the place. -/
  col : Nat := 0
  deriving Repr

namespace Cursor

/-- A character that follows, counted from zero. -/
def at? (cursor : Cursor) (n : Nat) : Option Char :=
  cursor.rest[n]?

/-- The next character. -/
def next? (cursor : Cursor) : Option Char :=
  cursor.rest.head?

/-- Whether a certain character follows. -/
def sees (cursor : Cursor) (c : Char) : Bool :=
  cursor.next? == some c

/-- Whether the character at a distance is a blank or a line break, or the document ends before. -/
def spaceAt (cursor : Cursor) (n : Nat) : Bool :=
  (cursor.at? n).all fun c => isBlank c || isBreak c

/-- Whether a line break follows, or the document ends. -/
def lineEnds (cursor : Cursor) : Bool :=
  cursor.next?.all isBreak

/-- The place after one character of the line. -/
def skip (cursor : Cursor) : Cursor :=
  { cursor with rest := cursor.rest.drop 1, index := cursor.index + 1, col := cursor.col + 1 }

/-- The place after several characters of the line. -/
def skipMany (cursor : Cursor) (n : Nat) : Cursor :=
  { cursor with rest := cursor.rest.drop n, index := cursor.index + n, col := cursor.col + n }

/-- The place after those next characters that pass a test, which is failed by line breaks. -/
def skipWhile (cursor : Cursor) (test : Char → Bool) : Cursor :=
  cursor.skipMany (cursor.rest.takeWhile test).length

/-- The line break that follows, as it counts in a text, and the place after it. -/
def takeBreak (cursor : Cursor) : Text × Cursor :=
  let after (n : Nat) (rest : Text) : Cursor :=
    ⟨rest, cursor.index + n, cursor.line + 1, 0⟩
  match cursor.rest with
  | '\r' :: '\n' :: rest => (['\n'], after 2 rest)
  | c :: rest =>
    if c = '\u2028' ∨ c = '\u2029' then ([c], after 1 rest)
    else if isBreak c then (['\n'], after 1 rest)
    else ([], cursor)
  | [] => ([], cursor)

/-- The place after the line break that follows. -/
def skipBreak (cursor : Cursor) : Cursor :=
  cursor.takeBreak.2

/-- Whether a line starts here with three equal characters as a mark between documents. -/
def atMark (cursor : Cursor) (c : Char) : Bool :=
  cursor.col == 0 && [c, c, c].isPrefixOf cursor.rest && cursor.spaceAt 3

/-- Whether a line starts here with a mark between documents. -/
def atDocumentMark (cursor : Cursor) : Bool :=
  cursor.atMark '-' || cursor.atMark '.'

end Cursor
end LinkedNotes.Yaml
