import LinkedNotes.Rank.Automaton

/-!
# Tolerance for typing errors

An automaton that accepts the texts within a number of insertions, deletions and substitutions of a
query. Its states are the rows of the table of edit distances. The automaton follows UTF-8 octets:
where several characters of the query that may come next begin with the octet of the next character
of the text, only the last of them is looked for. An automaton that would need too many states is
not built.
-/

namespace LinkedNotes.Typo

/-- A query with the number of errors it tolerates. -/
structure Pattern where
  /-- The query. -/
  query : Text
  /-- How many errors are tolerated. -/
  limit : Nat
  deriving DecidableEq, Repr

namespace Pattern

/-- A row of edit distances: those of the starts of the query from what was read, capped just
above the limit except for the first one. -/
abbrev Row := List Nat

/-- The row before anything is read. -/
def start (pattern : Pattern) : Row :=
  List.range (pattern.query.length + 1)

/-- Whether the whole query is near enough. -/
def accepts (pattern : Pattern) (row : Row) : Bool :=
  row.getLast?.any (· ≤ pattern.limit)

/-- Whether some start of the query is near enough. -/
def alive (pattern : Pattern) (row : Row) : Bool :=
  row.any (· ≤ pattern.limit)

/-- Distances of the next row after its entry `left`, computed from the old row and the query.
`read` is the character that was read, or none for one that the query does not have. -/
def nextAfter (pattern : Pattern) (read : Option Char) : Nat → Row → Text → Row
  | left, above :: beside :: row, c :: query =>
    let cost := if read = some c then 0 else 1
    let entry := min (min (min (left + 1) (beside + 1)) (above + cost)) (pattern.limit + 1)
    entry :: nextAfter pattern read entry (beside :: row) query
  | _, _, _ => []

/-- The row after a character is read. -/
def next (pattern : Pattern) (row : Row) (read : Option Char) : Row :=
  let first := row.headD 0 + 1
  first :: nextAfter pattern read first row pattern.query

/-- First octet of the UTF-8 form of a character. -/
def firstOctet (c : Char) : Nat :=
  (String.utf8EncodeChar c).headD 0 |>.toNat

/-- Characters of the query, in order, that are looked for at a row. -/
def expected (pattern : Pattern) (row : Row) : List Char :=
  ((row.zip pattern.query).filter fun (distance, c) =>
    distance ≤ pattern.limit && pattern.alive (pattern.next row (some c))).map (·.2)

/-- The row after a character of a key, if there is one. -/
def step? (pattern : Pattern) (row : Row) (c : Char) : Option Row :=
  match ((pattern.expected row).filter fun e => firstOctet e == firstOctet c).getLast? with
  | some last => if last = c then some (pattern.next row (some c)) else none
  | none => some (pattern.next row (some c))

/-- How far a text has been read. -/
structure Progress where
  /-- The row after the whole characters, unless there is none. -/
  row : Option Row
  /-- The octets of a character that has only begun. -/
  begun : List UInt8

/-- The progress after an octet is read. -/
def Progress.read (pattern : Pattern) (progress : Progress) (octet : UInt8) : Progress :=
  let octets := progress.begun ++ [octet]
  match octets.toByteArray.utf8DecodeChar? 0 with
  | some c => ⟨progress.row.bind (pattern.step? · c), []⟩
  | none => ⟨progress.row, octets⟩

/-- The automaton of a query. -/
def automaton (pattern : Pattern) : Automaton where
  State := Progress
  start := ⟨some pattern.start, []⟩
  accepts progress := progress.begun.isEmpty && progress.row.any pattern.accepts
  mayAccept progress := progress.row.any pattern.alive
  next := Progress.read pattern

/-- How many states an automaton may have. -/
def stateLimit : Nat := 10000

/-- States of the octets of any character that the query does not have at a place. -/
def mismatchStates : Nat := 18

/-- Rows that can follow a row and are alive. -/
def successors (pattern : Pattern) (row : Row) : List Row :=
  let other := pattern.next row none
  let found := (row.zip pattern.query).filterMap fun (distance, c) =>
    if distance ≤ pattern.limit then some (pattern.next row (some c)) else none
  (other :: found).filter pattern.alive

/-- States that a row needs for the octets of the characters that lead on from it. -/
def octetStates (pattern : Pattern) (row : Row) : Nat :=
  (if pattern.alive (pattern.next row none) then mismatchStates else 0) +
    (pattern.expected row).foldl (fun octets c => octets + (c.utf8Size - 1)) 0

/-- Whether the rows that can be reached need more states than allowed. `waiting` are the rows
still to look at, `seen` those that were reached, and `count` the states counted so far. The fuel
bounds the rows that are looked at. -/
def exceeds (pattern : Pattern) : Nat → List Row → List Row → Nat → Bool
  | 0, _, _, _ => true
  | _, [], _, _ => false
  | fuel + 1, row :: waiting, seen, count =>
    let fresh := (pattern.successors row).eraseDups.filter (!seen.contains ·)
    let count := count + fresh.length + pattern.octetStates row
    if stateLimit < count then true
    else exceeds pattern fuel (fresh ++ waiting) (fresh ++ seen) count

/-- Whether the automaton of a query stays within the allowed number of states. Every row that is
looked at counts as a state, which bounds the rows. -/
def buildable (pattern : Pattern) : Bool :=
  !pattern.exceeds (stateLimit + 1) [pattern.start] [pattern.start] 1

/-- The automaton for a query and a number of errors, unless it would be too large. -/
def automaton? (query : Text) (limit : Nat) : Option Automaton :=
  let pattern : Pattern := ⟨query, limit⟩
  if pattern.buildable then some pattern.automaton else none

end Pattern

end LinkedNotes.Typo
