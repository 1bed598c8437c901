import LinkedNotes.Text.Basic

/-!
# JSON values

Settings and messages are JSON values. An object holds its fields in increasing order of their
names, each name once. Integers and decimal fractions are kept apart, because readers of settings
tell them apart.
-/

namespace LinkedNotes

/-- A decimal number, `mantissa` times ten to the power `exponent`. -/
structure Decimal where
  /-- Whether there is a minus sign, also on zero. -/
  negative : Bool
  /-- The digits, read as one number. -/
  mantissa : Nat
  /-- The power of ten that the digits are multiplied with. -/
  exponent : Int
  deriving DecidableEq, Repr

/-- A JSON value. -/
inductive Json where
  | null
  | bool (value : Bool)
  | int (value : Int)
  | decimal (value : Decimal)
  | str (value : Text)
  | arr (items : List Json)
  | obj (fields : List (Text × Json))
  deriving Repr, Inhabited, BEq

namespace Json

/-- The fields of an object. -/
abbrev Fields := List (Text × Json)

namespace Fields

/-- The value of a field. -/
def get? (name : Text) : Fields → Option Json
  | [] => none
  | (other, value) :: rest => if other = name then some value else get? name rest

/-- The fields with one of them set; a new one takes its place in the order. -/
def set (name : Text) (value : Json) : Fields → Fields
  | [] => [(name, value)]
  | (other, old) :: rest =>
    if other = name then (name, value) :: rest
    else if Text.le name other then (name, value) :: (other, old) :: rest
    else (other, old) :: set name value rest

/-- The fields without one of them. -/
def erase (name : Text) (fields : Fields) : Fields :=
  fields.filter (·.1 ≠ name)

/-- A field that was set is found. -/
theorem get?_set_self (name : Text) (value : Json) (fields : Fields) :
    get? name (set name value fields) = some value := by
  induction fields with
  | nil => simp [set, get?]
  | cons field rest ih =>
    obtain ⟨other, old⟩ := field
    simp only [set]
    split
    · simp [get?]
    · next h => split <;> simp [get?, h, ih]

/-- Setting a field leaves the others alone. -/
theorem get?_set_of_ne {name other : Text} (h : other ≠ name) (value : Json) (fields : Fields) :
    get? other (set name value fields) = get? other fields := by
  induction fields with
  | nil => simp [set, get?, Ne.symm h]
  | cons field rest ih =>
    obtain ⟨first, old⟩ := field
    simp only [set]
    split
    · next hf => subst hf; simp [get?, Ne.symm h]
    · split
      · simp [get?, Ne.symm h]
      · simp [get?, ih]

end Fields

/-- An object with the given fields; of two fields with one name the later one counts. -/
def object (fields : Fields) : Json :=
  .obj (fields.foldl (fun done (name, value) => Fields.set name value done) [])

/-- The value of a field of an object; other values have no fields. -/
def field? (name : Text) : Json → Option Json
  | obj fields => Fields.get? name fields
  | _ => none

mutual

/-- One value laid over another: objects are joined field by field, anything else replaces. -/
def merge (base : Json) : Json → Json
  | obj overrides =>
    match base with
    | obj fields => .obj (mergeFields fields overrides)
    | _ => .obj overrides
  | other => other

/-- Fields laid over the fields of an object. -/
def mergeFields (base : Fields) : Fields → Fields
  | [] => base
  | (name, value) :: rest =>
    match Fields.get? name base with
    | some old => mergeFields (Fields.set name (merge old value) base) rest
    | none => mergeFields (Fields.set name value base) rest

end

end Json
end LinkedNotes
