import LinkedNotes.Yaml.Node

/-!
# Plain texts that are no texts

A plain scalar may read as nothing, as a truth value or as a number. Main definition: `isOther`
tells which ones do, so that a writer puts them in quotes.
-/

namespace LinkedNotes.Yaml.Plain

/-- A text without the first sign. -/
def unsigned : Text → Text
  | '+' :: rest => rest
  | '-' :: rest => rest
  | text => text

/-- Whether a text has more than one digit and starts with zero, which makes it no number. -/
def isPaddedDigits (text : Text) : Bool :=
  match unsigned text with
  | '0' :: rest => rest ≠ [] && rest.all Char.isDigit
  | _ => false

/-- The bases of whole numbers by the letter after the zero. -/
def bases : List (Char × Nat) :=
  [('x', 16), ('o', 8), ('b', 2)]

/-- The number that digits of a base make up. -/
def digits? (base : Nat) (text : Text) : Option Nat := do
  let values ← text.mapM Scalar.hexDigit?
  if values ≠ [] ∧ values.all (· < base) then
    return values.foldl (fun n digit => base * n + digit) 0
  else none

/-- Whether a text is a whole number with a letter for its base, and fits into 128 bits. -/
def isBased (text : Text) : Bool :=
  let fits (limit : Nat) : Text → Bool
    | '0' :: letter :: rest =>
      ((bases.lookup letter).bind (digits? · rest)).any (· < limit)
    | _ => false
  match text with
  | '-' :: rest => fits (1 <<< 127 + 1) rest
  | '+' :: rest => fits (1 <<< 128) rest
  | rest => fits (1 <<< 128) rest

/-- The number that decimal digits make up. -/
def natOf (digits : Text) : Nat :=
  digits.foldl (fun n c => 10 * n + (c.toNat - '0'.toNat)) 0

/-- The power of ten that an exponent asks for; no exponent asks for none. -/
def exponent? : Text → Option Int
  | [] => some 0
  | mark :: rest =>
    if mark = 'e' ∨ mark = 'E' then
      let digits := unsigned rest
      if digits ≠ [] ∧ digits.all Char.isDigit then
        some (if rest.head? = some '-' then -natOf digits else natOf digits)
      else none
    else none

/-- Least number that is too large for a double after rounding: half a step above the largest. -/
def doubleLimit : Nat :=
  1 <<< 1024 - 1 <<< 970

/-- Whether a number times a power of ten is within the range of doubles. -/
def isFinite (mantissa : Nat) (exponent : Int) : Bool :=
  let top := (Nat.toDigits 10 mantissa).length + exponent
  if mantissa = 0 ∨ top < 300 then true
  else if 320 < top then false
  else if 0 ≤ exponent then mantissa * Nat.pow 10 exponent.toNat < doubleLimit
  else mantissa < doubleLimit * Nat.pow 10 (-exponent).toNat

/-- Whether a text without a sign is a decimal number within the range of doubles. -/
def isDecimal (text : Text) : Bool :=
  let whole := text.takeWhile Char.isDigit
  let rest := text.drop whole.length
  let (fraction, rest) := match rest with
    | '.' :: more => (more.takeWhile Char.isDigit, more.dropWhile Char.isDigit)
    | _ => ([], rest)
  match exponent? rest with
  | none => false
  | some exponent =>
    whole ++ fraction ≠ [] && isFinite (natOf (whole ++ fraction)) (exponent - fraction.length)

/-- The texts that stand for numbers without digits. -/
def specialNumbers : List Text :=
  let unsigned := [".inf".toList, ".Inf".toList, ".INF".toList]
  unsigned ++ unsigned.map ('+' :: ·) ++ unsigned.map ('-' :: ·) ++
    [".nan".toList, ".NaN".toList, ".NAN".toList]

/-- Whether a plain text reads as something else than a text, or is a number but for leading zeros.
-/
def isOther (text : Text) : Bool :=
  Text.isOneOf text Document.nullTexts || (Document.truthValues.lookup text).isSome ||
    Text.isOneOf text specialNumbers || isPaddedDigits text || isBased text ||
    isDecimal (unsigned text)

end LinkedNotes.Yaml.Plain
