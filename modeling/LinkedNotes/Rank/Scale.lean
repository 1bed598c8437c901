import LinkedNotes.Text.Basic

/-!
# Scales of scores

A score is a number between nothing and one; lower is better. The numbers may be exact fractions,
on which laws of the order are stated, or doubles, on which the server computes. The ranking is
defined once for both.
-/

namespace LinkedNotes

/-- Numbers that scores are computed with. -/
class Scale (S : Type) extends Add S, Sub S, Mul S, Div S, OfScientific S where
  /-- An integer as a number of the scale. -/
  ofInt : Int → S
  /-- Whether a number is not above another one. -/
  le : S → S → Bool
  /-- The nearest natural number of a number that is not negative; a half goes up. -/
  round : S → Nat

namespace Scale

/-- The exact fractions. -/
instance exact : Scale Rat where
  ofInt n := n
  le a b := decide (a ≤ b)
  round a := (a + 1 / 2).floor.toNat

/-- The doubles. -/
instance double : Scale Float where
  ofInt := Float.ofInt
  le a b := decide (a ≤ b)
  round a := a.round.toUInt64.toNat

variable {S : Type} [Scale S]

/-- A number moved into the interval from nothing to one. -/
def clamp (a : S) : S :=
  if Scale.le a (Scale.ofInt 0) then Scale.ofInt 0
  else if Scale.le (Scale.ofInt 1) a then Scale.ofInt 1
  else a

end Scale
end LinkedNotes
