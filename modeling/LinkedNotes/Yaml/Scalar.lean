import LinkedNotes.Yaml.Cursor

/-!
# Scalars

How the texts in a YAML document are read: plain ones, those in quotes, and blocks. Outside of
blocks a line break counts as a space, and each further one as itself; a break of the Unicode
separators always counts as itself.
-/

namespace LinkedNotes.Yaml

/-- How a scalar is written. -/
inductive Style where
  | plain
  | singleQuoted
  | doubleQuoted
  | literal
  | folded
  deriving DecidableEq, Repr

/-- A text in a document. -/
structure Scalar where
  /-- The text. -/
  value : Text
  /-- How it is written. -/
  style : Style
  deriving DecidableEq, Repr

namespace Scalar

/-- Blanks and line breaks between two parts of a scalar. -/
structure Gap where
  /-- Blanks before the first line break. -/
  blanks : Text := []
  /-- The first line break. -/
  first : Text := []
  /-- The other line breaks. -/
  more : Text := []
  /-- Whether a line break came. -/
  broken : Bool := false

namespace Gap

/-- What a gap stands for. -/
def value (gap : Gap) : Text :=
  if !gap.broken then gap.blanks
  else if gap.first = ['\n'] then (if gap.more = [] then [' '] else gap.more)
  else gap.first ++ gap.more

/-- The gap with a line break added. -/
def addBreak (gap : Gap) (text : Text) : Gap :=
  if gap.broken then { gap with more := gap.more ++ text }
  else { blanks := [], first := text, more := gap.more, broken := true }

/-- Reads blanks and line breaks. `refuses` tells of a blank after a line break whether it is
refused. The fuel bounds the characters. -/
def read? (refuses : Cursor → Bool) : Nat → Gap → Cursor → Option (Gap × Cursor)
  | 0, gap, cursor => some (gap, cursor)
  | fuel + 1, gap, cursor =>
    match cursor.next? with
    | none => some (gap, cursor)
    | some c =>
      if isBlank c then
        if gap.broken then
          if refuses cursor then none else read? refuses fuel gap cursor.skip
        else read? refuses fuel { gap with blanks := gap.blanks ++ [c] } cursor.skip
      else if isBreak c then
        let (text, cursor) := cursor.takeBreak
        read? refuses fuel (gap.addBreak text) cursor
      else some (gap, cursor)

end Gap

/-! ## Plain scalars -/

/-- The characters that end a plain scalar inside brackets. -/
def isFlowMark (c : Char) : Bool :=
  c ∈ ",[]\x7b\x7d".toList

/-- The words of a plain scalar up to a blank, a line break or an end, and the rest. Inside brackets
a colon right before a bracket or a comma is refused. -/
def plainWord? (inFlow : Bool) : Text → Option (Text × Text)
  | [] => some ([], [])
  | c :: rest =>
    let spaceNext := rest.head?.all fun d => isBlank d || isBreak d
    if isBlank c || isBreak c then some ([], c :: rest)
    else if inFlow && c == ':' && rest.head?.any (fun d => isFlowMark d || d == '?') then none
    else if c == ':' && spaceNext then some ([], c :: rest)
    else if inFlow && isFlowMark c then some ([], c :: rest)
    else (plainWord? inFlow rest).map fun (word, rest) => (c :: word, rest)

/-- The rest of a plain scalar after `done` and a gap; also tells whether the gap after it has a
line break. `indent` is the least column of its further lines outside of brackets. The fuel bounds
the characters. -/
def plainFrom? (inFlow : Bool) (indent : Nat) :
    Nat → Text → Gap → Cursor → Option (Text × Bool × Cursor)
  | 0, done, gap, cursor => some (done, gap.broken, cursor)
  | fuel + 1, done, gap, cursor =>
    if cursor.atDocumentMark || cursor.sees '#' then some (done, gap.broken, cursor)
    else do
      let (word, _) ← plainWord? inFlow cursor.rest
      let cursor := cursor.skipMany word.length
      let done := if word = [] then done else done ++ gap.value ++ word
      let gap := if word = [] then gap else {}
      if cursor.next?.all fun c => !isBlank c && !isBreak c then return (done, gap.broken, cursor)
      let refuses (place : Cursor) := place.col < indent && place.sees '\t'
      let (gap, cursor) ← Gap.read? refuses cursor.rest.length gap cursor
      if !inFlow && cursor.col < indent then return (done, gap.broken, cursor)
      plainFrom? inFlow indent fuel done gap cursor

/-- A plain scalar, and whether a line break follows it. -/
def plain? (inFlow : Bool) (indent : Nat) (cursor : Cursor) : Option (Text × Bool × Cursor) :=
  plainFrom? inFlow indent (cursor.rest.length + 1) [] {} cursor

/-! ## Quoted scalars -/

/-- The characters that an escape of one character stands for. -/
def escapes : List (Char × Char) :=
  [('0', '\x00'), ('a', '\x07'), ('b', '\x08'), ('t', '\t'), ('\t', '\t'), ('n', '\n'),
    ('v', '\x0b'), ('f', '\x0c'), ('r', '\r'), ('e', '\x1b'), (' ', ' '), ('"', '"'), ('/', '/'),
    ('\\', '\\'), ('N', '\u0085'), ('_', '\u00a0'), ('L', '\u2028'), ('P', '\u2029')]

/-- The escapes by code point, with the number of their digits. -/
def codeEscapes : List (Char × Nat) :=
  [('x', 2), ('u', 4), ('U', 8)]

/-- Value of a hexadecimal digit. -/
def hexDigit? (c : Char) : Option Nat :=
  if '0' ≤ c ∧ c ≤ '9' then some (c.toNat - '0'.toNat)
  else if 'a' ≤ c ∧ c ≤ 'f' then some (c.toNat - 'a'.toNat + 10)
  else if 'A' ≤ c ∧ c ≤ 'F' then some (c.toNat - 'A'.toNat + 10)
  else none

/-- The character with the code point that some digits give. -/
def charOfHex? (digits : Text) : Option Char := do
  let values ← digits.mapM hexDigit?
  let code := values.foldl (fun n digit => 16 * n + digit) 0
  if code.isValidChar then some (Char.ofNat code) else none

/-- The character that the escape after a backslash stands for, and its length. -/
def escape? : Text → Option (Char × Nat)
  | [] => none
  | c :: rest =>
    match escapes.lookup c, codeEscapes.lookup c with
    | some value, _ => some (value, 1)
    | none, some count =>
      let digits := rest.take count
      if digits.length < count then none
      else (charOfHex? digits).map fun value => (value, count + 1)
    | none, none => none

/-- The characters of a quoted scalar up to its closing quote, a blank or a line break. Tells
whether an escaped line break ended them. The fuel bounds the characters. -/
def quotedWord? (single : Bool) : Nat → Text → Cursor → Option (Text × Bool × Cursor)
  | 0, done, cursor => some (done, false, cursor)
  | fuel + 1, done, cursor =>
    match cursor.rest with
    | [] => some (done, false, cursor)
    | c :: rest =>
      if isBlank c || isBreak c then some (done, false, cursor)
      else if single then
        if c = '\'' then
          if rest.head? = some '\'' then
            quotedWord? single fuel (done ++ ['\'']) (cursor.skipMany 2)
          else some (done, false, cursor)
        else quotedWord? single fuel (done ++ [c]) cursor.skip
      else if c = '"' then some (done, false, cursor)
      else if c = '\\' then
        if rest.head?.any isBreak then some (done, true, cursor.skip.skipBreak)
        else do
          let (value, length) ← escape? rest
          quotedWord? single fuel (done ++ [value]) (cursor.skipMany (length + 1))
      else quotedWord? single fuel (done ++ [c]) cursor.skip

/-- The rest of a quoted scalar after `done`. The fuel bounds the characters. -/
def quotedFrom? (single : Bool) : Nat → Text → Cursor → Option (Text × Cursor)
  | 0, _, _ => none
  | fuel + 1, done, cursor =>
    if cursor.atDocumentMark || cursor.rest.isEmpty then none
    else do
      let (done, escaped, cursor) ← quotedWord? single (cursor.rest.length + 1) done cursor
      if cursor.sees (if single then '\'' else '"') then return (done, cursor.skip)
      let (gap, cursor) ←
        Gap.read? (fun _ => false) cursor.rest.length { broken := escaped } cursor
      quotedFrom? single fuel (done ++ gap.value) cursor

/-- A quoted scalar from its opening quote on. -/
def quoted? (single : Bool) (cursor : Cursor) : Option (Text × Cursor) :=
  quotedFrom? single (cursor.rest.length + 1) [] cursor.skip

/-! ## Block scalars -/

/-- What happens to the line breaks at the end of a block. -/
inductive Chomping where
  /-- All go. -/
  | strip
  /-- The first stays. -/
  | clip
  /-- All stay. -/
  | keep
  deriving DecidableEq, Repr

/-- The chomping that a character asks for. -/
def chompingOf? (c : Char) : Option Chomping :=
  if c = '+' then some .keep else if c = '-' then some .strip else none

/-- The indentation that a digit asks for; zero is refused. -/
def indentOf? (c : Char) : Option (Option Nat) :=
  if c = '0' then some none
  else if c.isDigit then some (some (c.toNat - '0'.toNat))
  else none

/-- What stands after the mark of a block: its chomping and, when given, its indentation. -/
def header? (cursor : Cursor) : Option (Chomping × Option Nat × Cursor) :=
  let chomping? (cursor : Cursor) := cursor.next?.bind chompingOf?
  let indent? (cursor : Cursor) := cursor.next?.bind indentOf?
  match chomping? cursor with
  | some chomping =>
    let cursor := cursor.skip
    match indent? cursor with
    | some none => none
    | some (some n) => some (chomping, some n, cursor.skip)
    | none => some (chomping, none, cursor)
  | none =>
    match indent? cursor with
    | some none => none
    | some (some n) =>
      let cursor := cursor.skip
      match chomping? cursor with
      | some chomping => some (chomping, some n, cursor.skip)
      | none => some (.clip, some n, cursor)
    | none => some (.clip, none, cursor)

/-- Reads indentation and empty lines of a block. An indentation of zero is not yet known; `widest`
is the widest so far. A tab in place of indentation is refused. The fuel bounds the lines. -/
def blockBreaks? (indent : Nat) : Nat → Nat → Text → Cursor → Option (Nat × Text × Cursor)
  | 0, widest, breaks, cursor => some (widest, breaks, cursor)
  | fuel + 1, widest, breaks, cursor =>
    let spaces := (cursor.rest.takeWhile (· == ' ')).length
    let count := if indent = 0 then spaces else min spaces (indent - cursor.col)
    let cursor := cursor.skipMany count
    let widest := max widest cursor.col
    if (indent = 0 ∨ cursor.col < indent) ∧ cursor.sees '\t' then none
    else if cursor.next?.any isBreak then
      let (text, cursor) := cursor.takeBreak
      blockBreaks? indent fuel widest (breaks ++ text) cursor
    else some (widest, breaks, cursor)

/-- The lines of a block after `done`. `first` is the break after the last line, `more` are the
empty lines since, and `blank` tells whether the last line starts with a blank. The fuel bounds the
lines. -/
def blockLines? (folded : Bool) (indent : Nat) :
    Nat → Text → Text → Text → Bool → Cursor → Option (Text × Text × Text × Cursor)
  | 0, done, first, more, _, cursor => some (done, first, more, cursor)
  | fuel + 1, done, first, more, blank, cursor =>
    if cursor.col ≠ indent ∨ cursor.rest.isEmpty then some (done, first, more, cursor)
    else
      let startsBlank := cursor.next?.any isBlank
      let joined :=
        if folded && first = ['\n'] && !blank && !startsBlank then
          (if more = [] then [' '] else more)
        else first ++ more
      let line := cursor.rest.takeWhile (!isBreak ·)
      let (text, cursor) := (cursor.skipMany line.length).takeBreak
      match blockBreaks? indent (cursor.rest.length + 1) 0 [] cursor with
      | none => none
      | some (_, breaks, cursor) =>
        blockLines? folded indent fuel (done ++ joined ++ line) text breaks startsBlank cursor

/-- A block scalar from its mark on; `parent` is the indentation around it, if there is one. -/
def block? (folded : Bool) (parent : Option Nat) (cursor : Cursor) : Option (Text × Cursor) := do
  let (chomping, given, cursor) ← header? cursor.skip
  let cursor := cursor.skipWhile isBlank
  let cursor := if cursor.sees '#' then cursor.skipWhile (!isBreak ·) else cursor
  if !cursor.lineEnds then none
  let cursor := cursor.skipBreak
  let least := (parent.map (· + 1)).getD 0
  let indent := (given.map ((parent.getD 0) + ·)).getD 0
  let (widest, breaks, cursor) ← blockBreaks? indent (cursor.rest.length + 1) 0 [] cursor
  let indent := if indent = 0 then max (max widest least) 1 else indent
  let (done, first, more, cursor) ←
    blockLines? folded indent (cursor.rest.length + 1) [] [] breaks false cursor
  let tail := match chomping with
    | .strip => []
    | .clip => first
    | .keep => first ++ more
  return (done ++ tail, cursor)

end Scalar
end LinkedNotes.Yaml
