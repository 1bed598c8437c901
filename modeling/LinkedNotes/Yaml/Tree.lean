import LinkedNotes.Yaml.Plain

/-!
# Writing YAML

Trees of texts, truth values, lists and mappings, and the documents that show them. A text is
written plain where that reads back as the text, else in single quotes; several lines make a block;
what neither can hold is escaped in double quotes.
-/

namespace LinkedNotes.Yaml

/-- What is written as a document. -/
inductive Tree where
  /-- A text. -/
  | str (value : Text)
  /-- A truth value. -/
  | bool (value : Bool)
  /-- A list of texts. -/
  | texts (items : List Text)
  /-- A mapping from words to trees, in order. -/
  | mapping (entries : List (Text × Tree))
  deriving Repr, Inhabited

namespace Tree

/-- Whether a character is written as itself. -/
def isPrintable (c : Char) : Bool :=
  let n := c.toNat
  n == 0x0A || (0x20 ≤ n && n ≤ 0x7E) || (0xA0 ≤ n && n ≤ 0xFFFD && n != 0xFEFF) || 0x10000 ≤ n

/-- Whether a text has two neighbours that pass two tests. -/
def hasPair (first second : Char → Bool) (text : Text) : Bool :=
  (text.zip (text.drop 1)).any fun (a, b) => first a && second b

/-- Whether a character is a space. -/
def isSpace (c : Char) : Bool :=
  c == ' '

/-- Whether a character is a space, a tab or a line break. -/
def isGap (c : Char) : Bool :=
  isBlank c || isBreak c

/-- Whether a text can only be written with escapes. -/
def needsEscapes (text : Text) : Bool :=
  text.any (!isPrintable ·) || hasPair isSpace isBreak text

/-- Characters that a plain scalar does not start with. -/
def openers : Text :=
  "#,[]\x7b\x7d&*!|>'\"%@`".toList

/-- Whether a text has a mark that would end a plain scalar or keep it from starting. -/
def hasMarks (text : Text) : Bool :=
  let gapAfterFirst := (text.drop 1).head?.all isGap
  text.head?.any (· ∈ openers) ||
    (text.head?.any (· ∈ "?:-".toList) && gapAfterFirst) ||
    hasPair (· == ':') isGap text || text.getLast? == some ':' ||
    hasPair isGap (· == '#') text ||
    "---".toList.isPrefixOf text || "...".toList.isPrefixOf text

/-- Whether a text can stand without quotes. -/
def canBePlain (text : Text) : Bool :=
  !needsEscapes text && !text.any isBreak && !hasMarks text &&
    !text.head?.any isSpace && !text.getLast?.any isSpace

/-- Indentation. -/
def spaces (n : Nat) : Text :=
  List.replicate n ' '

/-- A text with indentation in front of every line that is not empty; `fresh` tells whether a line
starts here. -/
def indented (indent : Nat) : Bool → Text → Text
  | _, [] => []
  | fresh, c :: rest =>
    if isBreak c then c :: indented indent true rest
    else if fresh then spaces indent ++ c :: indented indent false rest
    else c :: indented indent false rest

/-- A text in single quotes. -/
def singleQuoted (indent : Nat) (text : Text) : Text :=
  let inside := text.flatMap fun c => if c = '\'' then ['\'', '\''] else [c]
  let close := if text.getLast?.any isBreak then spaces indent else []
  '\'' :: indented indent false inside ++ close ++ ['\'']

/-- The letters of escapes that are written, by character. -/
def escapeLetters : List (Char × Char) :=
  [('\x00', '0'), ('\x07', 'a'), ('\x08', 'b'), ('\t', 't'), ('\n', 'n'), ('\x0b', 'v'),
    ('\x0c', 'f'), ('\r', 'r'), ('\x1b', 'e'), ('"', '"'), ('\\', '\\'), ('\u0085', 'N'),
    ('\u2028', 'L'), ('\u2029', 'P')]

/-- A number in hexadecimal digits, at least `width` of them. -/
def hex (width n : Nat) : Text :=
  let digits := (Nat.toDigits 16 n).map Char.toUpper
  List.replicate (width - digits.length) '0' ++ digits

/-- A character inside of double quotes. -/
def escaped (c : Char) : Text :=
  match escapeLetters.lookup c with
  | some letter => ['\\', letter]
  | none =>
    if isPrintable c then [c]
    else if c.toNat ≤ 0xFF then '\\' :: 'x' :: hex 2 c.toNat
    else if c.toNat ≤ 0xFFFF then '\\' :: 'u' :: hex 4 c.toNat
    else '\\' :: 'U' :: hex 8 c.toNat

/-- A text in double quotes. -/
def doubleQuoted (text : Text) : Text :=
  '"' :: text.flatMap escaped ++ ['"']

/-- A text in quotes. -/
def quoted (indent : Nat) (text : Text) : Text :=
  if needsEscapes text || hasPair isBreak isSpace text then doubleQuoted text
  else singleQuoted indent text

/-- What tells about the line breaks at the end of a block. -/
def chomping (text : Text) : Text :=
  match text.reverse with
  | last :: before =>
    if !isBreak last then ['-'] else if before.head?.all isBreak then ['+'] else []
  | [] => ['-']

/-- A text as a block of lines. -/
def block (indent : Nat) (text : Text) : Text :=
  let hint := if text.head?.any fun c => isSpace c || isBreak c then ['2'] else []
  '|' :: hint ++ chomping text ++ '\n' :: indented indent true text

/-- A text, with a given indentation of further lines. -/
def scalar (indent : Nat) (text : Text) : Text :=
  if '\n' ∈ text then
    if needsEscapes text || text.getLast?.any isSpace then doubleQuoted text
    else block indent text
  else if Plain.isOther text || !canBePlain text then quoted indent text
  else text

/-- A text that ends a line. -/
def line (text : Text) : Text :=
  if text.getLast?.any isBreak then text else text ++ ['\n']

/-- The word for a truth value. -/
def boolText (value : Bool) : Text :=
  if value then "true".toList else "false".toList

mutual

/-- A tree after its key, at an indentation. -/
def printValue (indent : Nat) : Tree → Text
  | str value => line (' ' :: scalar (indent + 2) value)
  | bool value => line (' ' :: boolText value)
  | texts [] => " []\n".toList
  | texts items =>
    '\n' :: items.flatMap fun item =>
      line (spaces indent ++ "- ".toList ++ scalar (indent + 2) item)
  | mapping [] => " \x7b\x7d\n".toList
  | mapping (entry :: entries) => '\n' :: printEntries (indent + 2) (entry :: entries)

/-- The entries of a mapping at an indentation. -/
def printEntries (indent : Nat) : List (Text × Tree) → Text
  | [] => []
  | (key, value) :: rest =>
    spaces indent ++ key ++ ':' :: printValue indent value ++ printEntries indent rest

end

/-- The document with the given entries. -/
def print (entries : List (Text × Tree)) : Text :=
  printEntries 0 entries

end Tree
end LinkedNotes.Yaml
