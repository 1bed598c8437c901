import LinkedNotes.Text.Basic

/-!
# Wildcard patterns

A wildcard pattern is a row of sets of octets, each of which stands for one octet or for any number
of them. Patterns of files are turned into lists of such rows, of which one has to match.
-/

namespace LinkedNotes

/-- An octet. -/
abbrev Octet := Nat

/-- The octets of the UTF-8 form of a text. -/
def Text.octets (text : Text) : List Octet :=
  text.flatMap fun c => (String.utf8EncodeChar c).map (·.toNat)

namespace Wildcard

/-- The octet of a slash. -/
def slash : Octet := 0x2F

/-- A set of octets: those in some ranges, or those in none of them. -/
structure OctetSet where
  /-- Whether the set holds what the ranges do not. -/
  negated : Bool
  /-- Inclusive ranges. -/
  ranges : List (Octet × Octet)
  deriving DecidableEq, Repr

namespace OctetSet

/-- Whether an octet is in a set. -/
def holds (set : OctetSet) (octet : Octet) : Bool :=
  set.negated != set.ranges.any fun range => range.1 ≤ octet && octet ≤ range.2

/-- Every octet. -/
def all : OctetSet := ⟨true, []⟩

/-- One octet. -/
def single (octet : Octet) : OctetSet := ⟨false, [(octet, octet)]⟩

/-- Every octet but a slash. -/
def inside : OctetSet := ⟨true, [(slash, slash)]⟩

end OctetSet

/-- A part of a pattern. -/
inductive Atom where
  /-- One octet of the set. -/
  | one (set : OctetSet)
  /-- Any number of octets of the set. -/
  | many (set : OctetSet)
  deriving DecidableEq, Repr

/-- The rests of a list after each of its starts that has only octets of a set. -/
def restsAfter (set : OctetSet) : List Octet → List (List Octet)
  | [] => [[]]
  | octet :: rest =>
    (octet :: rest) :: if set.holds octet then restsAfter set rest else []

/-- Whether a row of parts matches a whole list of octets. -/
def matchesAtoms : List Atom → List Octet → Bool
  | [], octets => octets.isEmpty
  | .one _ :: _, [] => false
  | .one set :: atoms, octet :: rest => set.holds octet && matchesAtoms atoms rest
  | .many set :: atoms, octets => (restsAfter set octets).any (matchesAtoms atoms)

/-- The parts that match just the octets of a text. -/
def literal (text : Text) : List Atom :=
  text.octets.map fun octet => .one (.single octet)

/-- The rows made of one row of each list, in order. -/
def sequence (left right : List (List Atom)) : List (List Atom) :=
  left.flatMap fun row => right.map (row ++ ·)

/-- A literal matches its own octets and nothing else. -/
theorem matchesAtoms_literal (text : Text) (octets : List Octet) :
    matchesAtoms (literal text) octets = true ↔ octets = text.octets := by
  simp only [literal]
  generalize text.octets = wanted
  induction wanted generalizing octets with
  | nil => simp [matchesAtoms]
  | cons octet rest ih =>
    cases octets with
    | nil => simp [matchesAtoms]
    | cons first more =>
      have h : (OctetSet.single octet).holds first = true ↔ first = octet := by
        simp only [OctetSet.holds, OctetSet.single]
        simp
        exact ⟨fun h => Nat.le_antisymm h.2 h.1, fun h => by simp [h]⟩
      simp [matchesAtoms, ih, h]

end Wildcard
end LinkedNotes
