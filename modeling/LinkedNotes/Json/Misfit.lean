import LinkedNotes.Json.Shortest
import LinkedNotes.Text.Quoted

/-!
# Values that do not fit

Reading a JSON value as something of a given kind fails with the reason why it does not fit. A
record may be given as an object or as the list of its fields in order. Of an object the fields are
visited in the order of their names, and the first misfit counts.
-/

namespace LinkedNotes.Json

/-- Why a value does not fit. -/
inductive Misfit where
  /-- A value of the wrong kind stands where something else is expected. -/
  | wrongKind (found : Json) (expected : Text)
  /-- A value of the right kind is not among those that are expected. -/
  | wrongValue (found : Json) (expected : Text)
  /-- A name is none of the known ones. -/
  | unknownVariant (name : Text) (known : List Text)
  /-- A list has more items than the record has fields. -/
  | tooManyItems (count : Nat)
  /-- A field that has to be there is missing. -/
  | missingField (name : Text)

namespace Misfit

/-- The shortest digits of a decimal, in positional notation when that is not too long, else with an
exponent. -/
def decimalText (value : Decimal) : Text :=
  let value := value.shortest
  let digits := Nat.toDigits 10 value.mantissa
  let point := value.pointPlace
  let sign : Text := if value.negative then ['-'] else []
  let body : Text :=
    if value.mantissa = 0 then "0.0".toList
    else if 0 ≤ value.exponent ∧ point ≤ 16 then
      digits ++ List.replicate value.exponent.toNat '0' ++ ".0".toList
    else if 0 < point ∧ point ≤ 16 then
      digits.take point.toNat ++ ['.'] ++ digits.drop point.toNat
    else if -5 < point ∧ point ≤ 0 then
      "0.".toList ++ List.replicate (-point).toNat '0' ++ digits
    else
      let tail := digits.drop 1
      digits.take 1 ++ (if tail = [] then [] else '.' :: tail) ++ ['e'] ++
        (toString (point - 1)).toList
  sign ++ body

/-- What a value is called in a message. -/
def describe : Json → Text
  | .null => "null".toList
  | .bool value => "boolean `".toList ++ (toString value).toList ++ ['`']
  | .int value => "integer `".toList ++ (toString value).toList ++ ['`']
  | .decimal value => "floating point `".toList ++ decimalText value ++ ['`']
  | .str value => "string ".toList ++ Text.quoted value
  | .arr _ => "sequence".toList
  | .obj _ => "map".toList

/-- Names in backticks, as a choice. -/
def choice (names : List Text) : Text :=
  let shown := names.map fun name => ['`'] ++ name ++ ['`']
  match shown with
  | [first, second] => first ++ " or ".toList ++ second
  | _ => "one of ".toList ++ Text.joinWith ", ".toList shown

/-- The message for a misfit. -/
def message : Misfit → Text
  | wrongKind found expected =>
    "invalid type: ".toList ++ describe found ++ ", expected ".toList ++ expected
  | wrongValue found expected =>
    "invalid value: ".toList ++ describe found ++ ", expected ".toList ++ expected
  | unknownVariant name known =>
    "unknown variant `".toList ++ name ++ "`, expected ".toList ++ choice known
  | tooManyItems count =>
    "invalid length ".toList ++ (toString count).toList ++
      ", expected fewer elements in array".toList
  | missingField name => "missing field `".toList ++ name ++ ['`']

end Misfit

/-- A value that has to be a truth value. -/
def readBool : Json → Except Misfit Bool
  | .bool value => .ok value
  | other => .error (.wrongKind other "a boolean".toList)

/-- A value that has to be a text. -/
def readText : Json → Except Misfit Text
  | .str value => .ok value
  | other => .error (.wrongKind other "a string".toList)

/-- A value that has to be a list. -/
def readList {α : Type} (read : Json → Except Misfit α) : Json → Except Misfit (List α)
  | .arr items => items.mapM read
  | other => .error (.wrongKind other "a sequence".toList)

/-- One of several names, or an object with that name and nothing as its value. -/
def readVariant {α : Type} (variants : List (Text × α)) : Json → Except Misfit α
  | .str name =>
    match variants.lookup name with
    | some value => .ok value
    | none => .error (.unknownVariant name (variants.map (·.1)))
  | .obj [(name, content)] =>
    match variants.lookup name with
    | none => .error (.unknownVariant name (variants.map (·.1)))
    | some value =>
      match content with
      | .null => .ok value
      | other => .error (.wrongKind other "unit".toList)
  | .obj fields => .error (.wrongValue (.obj fields) "map with a single key".toList)
  | other => .error (.wrongKind other "string or map".toList)

/-- How a record is read: its name in messages, its fields in order, and what one field sets. -/
structure RecordReader (α : Type) where
  /-- What a message calls the record. -/
  expected : Text
  /-- Names of the fields in the order of a list. -/
  names : List Text
  /-- The record with one field set from a value; unknown names set nothing. -/
  set : α → Text → Json → Except Misfit α

/-- A record whose missing fields keep the values of `start`. -/
def readRecord {α : Type} (reader : RecordReader α) (start : α) : Json → Except Misfit α
  | .obj fields => fields.foldlM (fun record (name, value) => reader.set record name value) start
  | .arr items => do
    let record ← (reader.names.zip items).foldlM
      (fun record (name, value) => reader.set record name value) start
    if reader.names.length < items.length then throw (.tooManyItems items.length)
    return record
  | other => .error (.wrongKind other reader.expected)

end LinkedNotes.Json
