import LinkedNotes.Text.Blank

/-!
# Texts

A text is the list of its characters. Its length is counted in three ways: characters, octets of
its UTF-8 form, and units of its UTF-16 form. Editors count columns in the last.
-/

namespace LinkedNotes

/-- A text is the list of its characters. -/
abbrev Text := List Char

namespace Text

/-- Number of UTF-16 units of a character. -/
def units (c : Char) : Nat :=
  if c.toNat < 0x10000 then 1 else 2

/-- Number of UTF-16 units of a text. -/
def width : Text → Nat
  | [] => 0
  | c :: rest => units c + width rest

/-- Number of octets of the UTF-8 form of a text. -/
def size : Text → Nat
  | [] => 0
  | c :: rest => c.utf8Size + size rest

/-- Whether a text is one of some words. -/
def isOneOf (text : Text) (words : List Text) : Bool :=
  text ∈ words

@[simp]
theorem isOneOf_iff {text : Text} {words : List Text} :
    isOneOf text words = true ↔ text ∈ words := by
  simp [isOneOf]

/-- The pieces of a text between the occurrences of a character; at least one piece. -/
def splitOn (separator : Char) : Text → List Text
  | [] => [[]]
  | c :: rest =>
    if c = separator then [] :: splitOn separator rest
    else match splitOn separator rest with
      | [] => [[c]]
      | piece :: pieces => (c :: piece) :: pieces

/-- The pieces joined again with a separator between neighbours. -/
def joinWith (separator : Text) : List Text → Text
  | [] => []
  | [piece] => piece
  | piece :: pieces => piece ++ separator ++ joinWith separator pieces

/-- A text without one carriage return at its end. -/
def dropReturn (line : Text) : Text :=
  if line.getLast? = some '\r' then line.dropLast else line

/-- The lines of a text without their terminators: a line feed ends a line, one carriage return
before it belongs to the terminator, and nothing stands after the last line feed. -/
def lines (text : Text) : List Text :=
  let pieces := splitOn '\n' text
  let ended := pieces.dropLast.map dropReturn
  match pieces.getLast? with
  | none => ended
  | some [] => ended
  | some last => ended ++ [last]

/-- Whether one text occurs inside another. -/
def containsText (needle : Text) : Text → Bool
  | [] => needle.isEmpty
  | c :: rest => needle.isPrefixOf (c :: rest) || containsText needle rest

/-- Replaces the occurrences of a non-empty text from left to right, after passing over `skip`
characters of an occurrence that has been replaced. -/
def replaceFrom (needle value : Text) : Nat → Text → Text
  | _, [] => []
  | skip + 1, _ :: rest => replaceFrom needle value skip rest
  | 0, c :: rest =>
    if needle.isPrefixOf (c :: rest) then value ++ replaceFrom needle value (needle.length - 1) rest
    else c :: replaceFrom needle value 0 rest

/-- Replaces the occurrences of a non-empty text from left to right. -/
def replaceAll (needle value text : Text) : Text :=
  replaceFrom needle value 0 text

/-- Lexicographic order by code points, which is the order of the UTF-8 octets. -/
def le : Text → Text → Bool
  | [], _ => true
  | _ :: _, [] => false
  | a :: s, b :: t => a.toNat < b.toNat || (a == b && le s t)

/-- The digits of a number, at least `width` of them. -/
def padded (width n : Nat) : Text :=
  let digits := Nat.toDigits 10 n
  List.replicate (width - digits.length) '0' ++ digits

@[simp]
theorem width_append (s t : Text) : width (s ++ t) = width s + width t := by
  induction s with
  | nil => simp [width]
  | cons c rest ih => simp [width, ih, Nat.add_assoc]

@[simp]
theorem size_append (s t : Text) : size (s ++ t) = size s + size t := by
  induction s with
  | nil => simp [size]
  | cons c rest ih => simp [size, ih, Nat.add_assoc]

/-- Splitting loses nothing: joining the pieces gives the text back. -/
theorem joinWith_splitOn (separator : Char) (text : Text) :
    joinWith [separator] (splitOn separator text) = text := by
  have ne (t : Text) : splitOn separator t ≠ [] := by
    cases t with
    | nil => simp [splitOn]
    | cons c rest =>
      simp only [splitOn]
      split
      · simp
      · split <;> simp
  induction text with
  | nil => rfl
  | cons c rest ih =>
    simp only [splitOn]
    cases hp : splitOn separator rest with
    | nil => exact absurd hp (ne rest)
    | cons piece pieces =>
      rw [hp] at ih
      split
      · next hc => simp [joinWith, ih, hc]
      · cases pieces with
        | nil => simpa [joinWith] using ih
        | cons next more => simpa [joinWith] using ih

end Text
end LinkedNotes
