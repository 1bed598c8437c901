import LinkedNotes.Json.Misfit
import LinkedNotes.Server.Uri
import LinkedNotes.Text.Edit

/-!
# Parts of messages

Reading the fields of a message, and the values that occur in many messages: numbers, URIs, points
and ranges.
-/

namespace LinkedNotes.Json

/-- A field that has to be there. -/
def required {α : Type} (name : String) (read : Json → Except Misfit α) (object : Json) :
    Except Misfit α :=
  match object with
  | .obj fields =>
    match Fields.get? name.toList fields with
    | some value => read value
    | none => .error (.missingField name.toList)
  | other => .error (.wrongKind other "map".toList)

/-- A field that may be missing or null. -/
def optional {α : Type} (name : String) (read : Json → Except Misfit α) (object : Json) :
    Except Misfit (Option α) :=
  match object.field? name.toList with
  | none | some .null => .ok none
  | some value => (read value).map some

/-- Any value. -/
def readAny (value : Json) : Except Misfit Json :=
  .ok value

/-- A number from zero up to a limit. -/
def readBounded (limit : Nat) (kind : String) : Json → Except Misfit Nat
  | .int value =>
    if 0 ≤ value ∧ value < limit then .ok value.toNat
    else .error (.wrongValue (.int value) kind.toList)
  | other => .error (.wrongKind other kind.toList)

/-- A line or a column. -/
def readCoordinate : Json → Except Misfit Nat :=
  readBounded UInt32.size "u32"

/-- A number of 32 bits with a sign. -/
def readInt : Json → Except Misfit Int
  | .int value =>
    let half : Int := UInt32.size / 2
    if -half ≤ value ∧ value < half then .ok value
    else .error (.wrongValue (.int value) "i32".toList)
  | other => .error (.wrongKind other "i32".toList)

/-- A URI. -/
def readUri : Json → Except Misfit Uri
  | .str text =>
    match Uri.parse? text with
    | some uri => .ok uri
    | none => .error (.wrongValue (.str text) "relative URL without a base".toList)
  | other => .error (.wrongKind other "a string representing an URL".toList)

/-- A point, as an object or as the list of its two numbers. -/
def readPoint : Json → Except Misfit Point
  | .arr [line, col] => return ⟨← readCoordinate line, ← readCoordinate col⟩
  | other => do
    let line ← required "line" readCoordinate other
    return ⟨line, ← required "character" readCoordinate other⟩

/-- A range, as an object or as the list of its two points. -/
def readRange : Json → Except Misfit TextRange
  | .arr [start, stop] => return ⟨← readPoint start, ← readPoint stop⟩
  | other => do
    let start ← required "start" readPoint other
    return ⟨start, ← required "end" readPoint other⟩

/-- A change of a document. -/
def readChange (value : Json) : Except Misfit ContentChange := do
  let range ← optional "range" readRange value
  return ⟨range, ← required "text" readText value⟩

end LinkedNotes.Json
