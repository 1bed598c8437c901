/-!
# Sets of characters as ranges

A character class is a list of inclusive ranges of code points. The class tables of this library
are such lists in increasing order; membership does not depend on the order.
-/

namespace LinkedNotes.Text

/-- Whether the code point of `c` lies in one of the inclusive ranges. -/
def inRanges (ranges : List (Nat × Nat)) (c : Char) : Bool :=
  ranges.any fun range => range.1 ≤ c.toNat && c.toNat ≤ range.2

/-- Membership names a range that holds the code point. -/
theorem inRanges_eq_true_iff {ranges : List (Nat × Nat)} {c : Char} :
    inRanges ranges c = true ↔ ∃ range ∈ ranges, range.1 ≤ c.toNat ∧ c.toNat ≤ range.2 := by
  simp [inRanges]

end LinkedNotes.Text
