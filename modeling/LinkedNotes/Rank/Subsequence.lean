import LinkedNotes.Text.Basic

/-!
# Scored subsequences

How well a pattern matches a text as a subsequence. Each matched character earns points; characters
at the start of words earn a bonus, and neighbours that both match carry the bonus on, while gaps
cost. The best way of placing the pattern is found row by row, one row for each character of the
pattern. Only two rows of cells are kept and used in turns, so that at the first column of a row
the cell before it is one that was written two rows earlier.
-/

namespace LinkedNotes.Subsequence

/-- Kinds of characters that decide where words start. -/
inductive Kind where
  /-- No character: the start of the text. -/
  | start
  /-- A bracket, a slash, a bar or a space. -/
  | hard
  /-- Other ASCII punctuation. -/
  | soft
  | digit
  | upper
  | lower
  deriving DecidableEq, Repr

/-- The kind of a character. -/
def kindOf (c : Char) : Kind :=
  if c ∈ "/\\|()[]\x7b\x7d ".toList then .hard
  else if ('!' ≤ c ∧ c ≤ '\'') ∨ ('*' ≤ c ∧ c ≤ '.') ∨ (':' ≤ c ∧ c ≤ '@') ∨
    ('^' ≤ c ∧ c ≤ '`') ∨ c = '~' then .soft
  else if '0' ≤ c ∧ c ≤ '9' then .digit
  else if 'A' ≤ c ∧ c ≤ 'Z' then .upper
  else .lower

/-- Bonus of a place between two characters. -/
def placeBonus : Kind → Kind → Int
  | .start, _ => 8
  | .hard, _ => 8
  | .soft, _ => 7
  | .lower, .upper => 6
  | .digit, .upper => 6
  | _, _ => 0

/-- The bonus of each character of a text; that of the first one counts twice. -/
def bonuses (text : Text) : List Int :=
  let kinds := text.map kindOf
  match (Kind.start :: kinds).zipWith placeBonus kinds with
  | [] => []
  | first :: rest => 2 * first :: rest

/-- Whether letters have to agree in case: when the pattern has a capital of ASCII. -/
def caseMatters (pattern : Text) : Bool :=
  pattern.any Char.isUpper

/-- Whether a character of the text matches one of the pattern. -/
def matchesChar (exact : Bool) (p c : Char) : Bool :=
  if exact then p == c else p.toLower == c.toLower

/-- Where the characters of a pattern first occur one after the other, if all of them do; places
are counted from `at`. -/
def firstPlaces? (exact : Bool) : Nat → Text → Text → Option (List Nat)
  | _, _, [] => some []
  | _, [], _ :: _ => none
  | place, c :: rest, p :: pattern =>
    if matchesChar exact p c then (firstPlaces? exact (place + 1) rest pattern).map (place :: ·)
    else firstPlaces? exact (place + 1) rest (p :: pattern)

/-- A cell: the best score that ends in a match here, the best that ends in a gap here, and the
bonus that a match in the next column may carry on. -/
structure Cell where
  /-- Best score with the pattern matched here. -/
  matched : Int
  /-- Best score with a gap here. -/
  gap : Int
  /-- Bonus carried on. -/
  bonus : Int
  deriving DecidableEq, Repr

/-- A score that no match has. -/
def floor : Int := -32768

/-- What one column of a row is computed from. -/
structure Column where
  /-- The cell that is overwritten. -/
  old : Cell
  /-- The cell before it in the other row. -/
  previous : Cell
  /-- The character of the text. -/
  char : Char
  /-- The bonus of the character. -/
  bonus : Int

/-- The rest of a row after its cell `last`. A match changes the bonus of the cell before it. -/
def rowAfter (exact : Bool) (p : Char) (last : Cell) : List Column → List Cell
  | [] => [last]
  | column :: rest =>
    let gap := max (last.matched - 4) (last.gap - 1)
    if matchesChar exact p column.char then
      let run := max (max last.bonus column.bonus) 4
      let earned := max (column.previous.matched + run) (column.previous.gap + column.bonus)
      let points := if p = column.char then 16 else 14
      { last with bonus := run } ::
        rowAfter exact p ⟨earned + points, gap, column.old.bonus⟩ rest
    else last :: rowAfter exact p ⟨floor, gap, 0⟩ rest

/-- Columns of a row from the place after `first`. -/
def columnsAfter (first : Nat) (row other : List Cell) (text : Text) (bonus : List Int) :
    List Column :=
  ((row.drop (first + 1)).zip (other.drop first)).zip ((text.drop first).zip (bonus.drop first))
    |>.map fun ((old, previous), (char, bonus)) => ⟨old, previous, char, bonus⟩

/-- Writes a row for one character of the pattern that first occurs at `first`. -/
def writeRow (exact : Bool) (p : Char) (first : Nat) (row other : List Cell) (text : Text)
    (bonus : List Int) : List Cell :=
  row.take first ++
    rowAfter exact p (row.getD first ⟨floor, floor, 0⟩) (columnsAfter first row other text bonus)

/-- Writes the rows for the rest of a pattern, in turns over `row` and `other`; gives the row that
was written last. -/
def writeRows (exact : Bool) (text : Text) (bonus : List Int) :
    List Cell → List Cell → List (Char × Nat) → List Cell
  | _, other, [] => other
  | row, other, (p, first) :: rest =>
    writeRows exact text bonus other (writeRow exact p first row other text bonus) rest

/-- The score of a pattern as a subsequence of a text, if it is one. -/
def score? (text pattern : Text) : Option Int := do
  let exact := caseMatters pattern
  let places ← firstPlaces? exact 0 text pattern
  let last ← places.getLast?
  let first ← places.head?
  let count := text.length + 1
  let blank := List.replicate count (⟨floor, -1, 0⟩ : Cell)
  let opened := (List.replicate count (⟨floor, floor, 0⟩ : Cell)).set first ⟨floor, floor, 0⟩
  let final := writeRows exact text (bonuses text) opened blank (pattern.zip places)
  (final.drop last).map (·.matched) |>.max?

end LinkedNotes.Subsequence
