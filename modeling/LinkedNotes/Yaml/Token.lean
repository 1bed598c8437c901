import LinkedNotes.Yaml.Scalar

/-!
# Tokens of YAML

The tokens of a document: its scalars and marks, and those that indentation stands for. A key is
only known as one when its colon comes, so the token in front of it is put in afterwards, at the
place where the key began.
-/

namespace LinkedNotes.Yaml

/-- A token. -/
inductive Token where
  /-- The directive that names the version of the format. -/
  | version (major minor : Nat)
  /-- The directive that gives a handle of tags a meaning. -/
  | tagMeaning (handle text : Text)
  /-- The mark before a document. -/
  | documentStart
  /-- The mark after a document. -/
  | documentEnd
  /-- The first item of a list by indentation comes. -/
  | blockList
  /-- The first key of a mapping by indentation comes. -/
  | blockMapping
  /-- A list or mapping by indentation ends. -/
  | blockEnd
  /-- An opening bracket. -/
  | flowList
  /-- A closing bracket. -/
  | flowListEnd
  /-- An opening brace. -/
  | flowMapping
  /-- A closing brace. -/
  | flowMappingEnd
  /-- The hyphen of an item. -/
  | item
  /-- A comma. -/
  | comma
  /-- A key comes. -/
  | key
  /-- A value comes. -/
  | value
  /-- A name for what follows. -/
  | anchor (name : Text)
  /-- A reference to what has a name. -/
  | reference (name : Text)
  /-- A tag of what follows, in two parts. -/
  | tag (handle rest : Text)
  /-- A scalar. -/
  | scalar (scalar : Scalar)
  deriving DecidableEq, Repr

/-- A place where a key may have begun. -/
structure KeyPlace where
  /-- Whether a colon has to follow. -/
  required : Bool
  /-- Number of tokens before the key. -/
  tokens : Nat
  /-- Where the key begins. -/
  cursor : Cursor

/-- How far the tokens of a document have been read. -/
structure Scanner where
  /-- Where to go on. -/
  cursor : Cursor
  /-- The tokens so far, in reverse. -/
  tokens : List Token := []
  /-- Columns of the lists and mappings by indentation that are open, innermost first. -/
  indents : List Nat := []
  /-- Whether a key may begin here. -/
  keyAllowed : Bool := true
  /-- The place of a key outside of brackets and in each pair of them, innermost first. -/
  keys : List (Option KeyPlace) := [none]

namespace Scanner

/-- Whether a bracket or brace is open. -/
def inFlow (scanner : Scanner) : Bool :=
  1 < scanner.keys.length

/-- The scanner after one more token. -/
def emit (scanner : Scanner) (token : Token) : Scanner :=
  { scanner with tokens := token :: scanner.tokens }

/-- The scanner with a token put in after the first `n` tokens. -/
def insertAt (scanner : Scanner) (n : Nat) (token : Token) : Scanner :=
  let later := scanner.tokens.length - n
  { scanner with
    tokens := scanner.tokens.take later ++ token :: scanner.tokens.drop later }

/-- Ends the lists and mappings whose column lies right of a column; of all when none is given. -/
def unroll (scanner : Scanner) (col : Option Nat) : Scanner :=
  if scanner.inFlow then scanner
  else
    let ended := scanner.indents.takeWhile fun indent => col.all (· < indent)
    { scanner with
      tokens := ended.map (fun _ => Token.blockEnd) ++ scanner.tokens,
      indents := scanner.indents.drop ended.length }

/-- Begins a list or mapping at a column that lies right of the innermost one, with its token after
the first `n` tokens. -/
def roll (scanner : Scanner) (col n : Nat) (token : Token) : Scanner :=
  if scanner.inFlow || scanner.indents.head?.any (col ≤ ·) then scanner
  else { scanner.insertAt n token with indents := col :: scanner.indents }

/-- Forgets the place of a key, which is refused when a colon has to follow. -/
def dropKey? (scanner : Scanner) : Option Scanner :=
  match scanner.keys with
  | [] => some scanner
  | key :: outer =>
    if key.any (·.required) then none else some { scanner with keys := none :: outer }

/-- Notes that a key may begin here. -/
def saveKey? (scanner : Scanner) : Option Scanner :=
  if !scanner.keyAllowed then some scanner
  else do
    let scanner ← scanner.dropKey?
    let required := !scanner.inFlow && scanner.indents.head? == some scanner.cursor.col
    let place : KeyPlace := ⟨required, scanner.tokens.length, scanner.cursor⟩
    return { scanner with keys := some place :: scanner.keys.drop 1 }

/-- Longest key in characters. -/
def keyLimit : Nat := 1024

/-- Forgets the places of keys on earlier lines or too far back. -/
def dropStaleKeys? (scanner : Scanner) : Option Scanner := do
  let keys ← scanner.keys.mapM fun key =>
    match key with
    | none => some none
    | some place =>
      if place.cursor.line < scanner.cursor.line ∨
          place.cursor.index + keyLimit < scanner.cursor.index then
        if place.required then none else some none
      else some (some place)
  return { scanner with keys := keys }

/-- Passes over blanks, comments and line breaks. A tab does not count as a blank where a key may
begin outside of brackets. The fuel bounds the lines. -/
def skipBlank : Nat → Scanner → Scanner
  | 0, scanner => scanner
  | fuel + 1, scanner =>
    let cursor := scanner.cursor
    let cursor := if cursor.index == 0 && cursor.sees '\uFEFF' then cursor.skip else cursor
    let tabs := scanner.inFlow || !scanner.keyAllowed
    let cursor := cursor.skipWhile fun c => c == ' ' || (tabs && c == '\t')
    let cursor := if cursor.sees '#' then cursor.skipWhile (!isBreak ·) else cursor
    if cursor.next?.any isBreak then
      skipBlank fuel { scanner with
        cursor := cursor.skipBreak, keyAllowed := scanner.keyAllowed || !scanner.inFlow }
    else { scanner with cursor := cursor }

/-- The scanner after a mark of some characters. -/
def mark (scanner : Scanner) (length : Nat) (token : Token) (keyAllowed : Bool) : Scanner :=
  { scanner.emit token with cursor := scanner.cursor.skipMany length, keyAllowed := keyAllowed }

/-- A number written in decimal digits, and the text after it. -/
def number? (text : Text) : Option (Nat × Text) :=
  let digits := text.takeWhile Char.isDigit
  if digits = [] ∨ 9 < digits.length then none
  else some (digits.foldl (fun n c => 10 * n + (c.toNat - '0'.toNat)) 0, text.drop digits.length)

/-- Characters of tags that stand for themselves. -/
def isTagChar (verbatim : Bool) (c : Char) : Bool :=
  isWordChar c || c ∈ ";/?:@&=+$.!~*'()".toList || (verbatim && c ∈ ",[]".toList)

/-- A tag text with its percent escapes read, and the text after it. The fuel bounds the
characters. -/
def tagText? (verbatim : Bool) : Nat → Text → Option (Text × Text)
  | 0, rest => some ([], rest)
  | fuel + 1, rest =>
    match rest with
    | '%' :: _ => do
      let octets ← percentOctets? rest.length rest
      let bytes := octets.1.map UInt8.ofNat
      let decoded ← String.fromUTF8? ⟨bytes.toArray⟩
      let (text, rest) ← tagText? verbatim fuel octets.2
      return (decoded.toList ++ text, rest)
    | c :: more =>
      if isTagChar verbatim c then
        (tagText? verbatim fuel more).map fun (text, rest) => (c :: text, rest)
      else some ([], rest)
    | [] => some ([], [])
where
  /-- The octets of percent escapes in a row, and the text after them. -/
  percentOctets? : Nat → Text → Option (List Nat × Text)
    | fuel + 1, '%' :: a :: b :: rest => do
      let high ← Scalar.hexDigit? a
      let low ← Scalar.hexDigit? b
      let (octets, rest) ← percentOctets? fuel rest
      return ((16 * high + low) :: octets, rest)
    | _, '%' :: _ => none
    | _, rest => some ([], rest)

/-- The handle of a tag: an exclamation mark, perhaps a word, and perhaps another mark. -/
def handle (text : Text) : Text :=
  match text with
  | '!' :: rest =>
    let word := rest.takeWhile isWordChar
    '!' :: word ++ (if (rest.drop word.length).head? = some '!' then ['!'] else [])
  | _ => []

/-- The two parts of a tag, and the text after it. -/
def tag? (text : Text) : Option (Text × Text × Text) :=
  match text with
  | '!' :: '<' :: rest => do
    let (uri, rest) ← tagText? true rest.length rest
    if uri = [] then none
    else match rest with
      | '>' :: rest => some ([], uri, rest)
      | _ => none
  | _ => do
    let start := handle text
    let after := text.drop start.length
    if 1 < start.length ∧ start.getLast? = some '!' then
      let (uri, rest) ← tagText? false after.length after
      if uri = [] then none else return (start, uri, rest)
    else
      let (uri, rest) ← tagText? false after.length after
      let suffix := start.drop 1 ++ uri
      if suffix = [] then return ([], ['!'], rest) else return (['!'], suffix, rest)

/-- A directive after its percent sign, and the text after it. -/
def directive? (text : Text) : Option (Token × Text) := do
  let name := text.takeWhile isWordChar
  let rest := (text.drop name.length).dropWhile isBlank
  if !(text.drop name.length).head?.all (fun c => isBlank c || isBreak c) then none
  if name = "YAML".toList then
    let (major, rest) ← number? rest
    let (minor, rest) ← match rest with
      | '.' :: rest => number? rest
      | _ => none
    return (.version major minor, rest)
  else if name = "TAG".toList then
    let start := handle rest
    if start ≠ ['!'] ∧ (start.length < 2 ∨ start.getLast? ≠ some '!') then none
    let after := rest.drop start.length
    if !after.head?.any isBlank then none
    let (uri, rest) ← tagText? true after.length (after.dropWhile isBlank)
    if uri = [] ∨ !rest.head?.all (fun c => isBlank c || isBreak c) then none
    return (.tagMeaning start uri, rest)
  else none

/-- The end of the line of a directive, which may hold a comment. -/
def directiveEnd? (cursor : Cursor) : Option Cursor :=
  let cursor := cursor.skipWhile isBlank
  let cursor := if cursor.sees '#' then cursor.skipWhile (!isBreak ·) else cursor
  if cursor.lineEnds then some cursor.skipBreak else none

/-- The scanner after an opening bracket. -/
def openFlow? (scanner : Scanner) (token : Token) : Option Scanner := do
  let scanner ← scanner.saveKey?
  return { scanner.mark 1 token true with keys := none :: scanner.keys }

/-- The scanner after a closing bracket. -/
def closeFlow? (scanner : Scanner) (token : Token) : Option Scanner := do
  let scanner ← scanner.dropKey?
  return { scanner.mark 1 token false with
    keys := if scanner.inFlow then scanner.keys.drop 1 else scanner.keys }

/-- The scanner after the hyphen of an item. -/
def item? (scanner : Scanner) : Option Scanner := do
  if !scanner.inFlow && !scanner.keyAllowed then none
  let scanner := scanner.roll scanner.cursor.col scanner.tokens.length .blockList
  return (← scanner.dropKey?).mark 1 .item true

/-- The scanner after a question mark in front of a key. -/
def key? (scanner : Scanner) : Option Scanner := do
  if !scanner.inFlow && !scanner.keyAllowed then none
  let scanner := scanner.roll scanner.cursor.col scanner.tokens.length .blockMapping
  return (← scanner.dropKey?).mark 1 .key (!scanner.inFlow)

/-- The scanner after a colon in front of a value. A key before it becomes one here. -/
def value? (scanner : Scanner) : Option Scanner :=
  match scanner.keys with
  | some place :: outer =>
    let scanner := scanner.insertAt place.tokens .key
    let scanner := scanner.roll place.cursor.col place.tokens .blockMapping
    some { scanner.mark 1 .value false with keys := none :: outer }
  | _ =>
    if !scanner.inFlow && !scanner.keyAllowed then none
    else
      let scanner := scanner.roll scanner.cursor.col scanner.tokens.length .blockMapping
      some (scanner.mark 1 .value (!scanner.inFlow))

/-- Characters that may follow the name of an anchor, beside blanks. -/
def endsName (c : Char) : Bool :=
  isBlank c || isBreak c || c ∈ "?:,]\x7d%@`".toList

/-- The scanner after an anchor or a reference to one. -/
def name? (scanner : Scanner) (token : Text → Token) : Option Scanner := do
  let scanner ← scanner.saveKey?
  let name := (scanner.cursor.rest.drop 1).takeWhile isWordChar
  let scanner := scanner.mark (name.length + 1) (token name) false
  if name = [] ∨ !scanner.cursor.next?.all endsName then none else return scanner

/-- The scanner after a tag. -/
def withTag? (scanner : Scanner) : Option Scanner := do
  let scanner ← scanner.saveKey?
  let (start, text, rest) ← tag? scanner.cursor.rest
  let scanner := scanner.mark (scanner.cursor.rest.length - rest.length) (.tag start text) false
  if scanner.cursor.spaceAt 0 || (scanner.inFlow && scanner.cursor.sees ',') then return scanner
  else none

/-- The scanner after a block scalar. -/
def blockScalar? (scanner : Scanner) (folded : Bool) : Option Scanner := do
  let scanner ← scanner.dropKey?
  let (text, cursor) ← Scalar.block? folded scanner.indents.head? scanner.cursor
  return { scanner.emit (.scalar ⟨text, if folded then .folded else .literal⟩) with
    cursor := cursor, keyAllowed := true }

/-- The scanner after a quoted scalar. -/
def quotedScalar? (scanner : Scanner) (single : Bool) : Option Scanner := do
  let scanner ← scanner.saveKey?
  let (text, cursor) ← Scalar.quoted? single scanner.cursor
  return { scanner.emit (.scalar ⟨text, if single then .singleQuoted else .doubleQuoted⟩) with
    cursor := cursor, keyAllowed := false }

/-- The scanner after a plain scalar; a key may begin after a line break behind it. -/
def plainScalar? (scanner : Scanner) : Option Scanner := do
  let scanner ← scanner.saveKey?
  let indent := (scanner.indents.head?.map (· + 1)).getD 0
  let (text, broken, cursor) ← Scalar.plain? scanner.inFlow indent scanner.cursor
  return { scanner.emit (.scalar ⟨text, .plain⟩) with cursor := cursor, keyAllowed := broken }

/-- The scanner after what stands between documents. -/
def between? (scanner : Scanner) (read : Cursor → Option (Token × Cursor)) : Option Scanner := do
  let scanner ← (scanner.unroll none).dropKey?
  let (token, cursor) ← read scanner.cursor
  return { scanner.emit token with cursor := cursor, keyAllowed := false }

/-- Characters that no plain scalar begins with. -/
def isIndicator (c : Char) : Bool :=
  c ∈ "-?:,[]\x7b\x7d#&*!|>'\"%@`".toList

/-- The scanner after the token that begins with a character. -/
def fetch? (scanner : Scanner) (c : Char) : Option Scanner :=
  let cursor := scanner.cursor
  let flow := scanner.inFlow
  let spaceNext := cursor.spaceAt 1
  if cursor.col == 0 && c == '%' then
    scanner.between? fun cursor => do
      let (token, rest) ← directive? (cursor.rest.drop 1)
      let cursor ← directiveEnd? (cursor.skipMany (cursor.rest.length - rest.length))
      return (token, cursor)
  else if cursor.atMark '-' then
    scanner.between? fun cursor => some (.documentStart, cursor.skipMany 3)
  else if cursor.atMark '.' then
    scanner.between? fun cursor => some (.documentEnd, cursor.skipMany 3)
  else if c == '[' then scanner.openFlow? .flowList
  else if c == '\x7b' then scanner.openFlow? .flowMapping
  else if c == ']' then scanner.closeFlow? .flowListEnd
  else if c == '\x7d' then scanner.closeFlow? .flowMappingEnd
  else if c == ',' then scanner.dropKey?.map (·.mark 1 .comma true)
  else if c == '-' && spaceNext then scanner.item?
  else if c == '?' && (flow || spaceNext) then scanner.key?
  else if c == ':' && (flow || spaceNext) then scanner.value?
  else if c == '*' then scanner.name? .reference
  else if c == '&' then scanner.name? .anchor
  else if c == '!' then scanner.withTag?
  else if c == '|' && !flow then scanner.blockScalar? false
  else if c == '>' && !flow then scanner.blockScalar? true
  else if c == '\'' then scanner.quotedScalar? true
  else if c == '"' then scanner.quotedScalar? false
  else if (!isIndicator c && !isBlank c) || c == '-' || (!flow && (c == '?' || c == ':')) then
    scanner.plainScalar?
  else none

/-- Reads tokens to the end of the text. The fuel bounds the tokens. -/
def run? : Nat → Scanner → Option Scanner
  | 0, _ => none
  | fuel + 1, scanner => do
    let scanner := scanner.skipBlank (scanner.cursor.rest.length + 1)
    let scanner ← scanner.dropStaleKeys?
    let scanner := scanner.unroll (some scanner.cursor.col)
    match scanner.cursor.next? with
    | none => (scanner.unroll none).dropKey?
    | some c => run? fuel (← scanner.fetch? c)

end Scanner

/-- The tokens of a text, unless it is malformed. -/
def tokens? (text : Text) : Option (List Token) :=
  if text.all isAllowed then
    (Scanner.run? (text.length + 1) { cursor := { rest := text } }).map (·.tokens.reverse)
  else none

end LinkedNotes.Yaml
