import LinkedNotes.Json.Basic

/-!
# Shortest decimals

A fraction in a message is held in double precision, so many decimals stand for one and the same
number. It is written as the decimal with the fewest digits among them. Main statement: what is
chosen on a grid of decimals stands for the same number.
-/

namespace LinkedNotes

/-- The fractions that are rounded to one and the same number in double precision. -/
structure RoundingInterval where
  /-- The least of them. -/
  low : Rat
  /-- The number that they are rounded to. -/
  value : Rat
  /-- The greatest of them. -/
  high : Rat
  /-- Whether the two ends are rounded to the number as well. -/
  closed : Bool

namespace RoundingInterval

/-- Number of binary digits of a double that follow the leading one. -/
def fractionBits : Nat := 52

/-- The power of two that a quarter of the last digit of the least doubles stands for. -/
def leastPower : Int := -1076

/-- The interval of a positive double that is given by its bits. Its ends lie in the middle between
two doubles. Below a power of two doubles are half as far apart as above it. -/
def ofBits (bits : Nat) : RoundingInterval :=
  let fraction := bits % (1 <<< fractionBits)
  let power := bits / (1 <<< fractionBits)
  let mantissa := if power = 0 then fraction else fraction + 1 <<< fractionBits
  let quarter : Rat := 2 ^ (leastPower + (power - 1 : Nat))
  let below := if fraction = 0 ∧ 1 < power then 1 else 2
  { low := (4 * mantissa - below : Nat) * quarter
    value := (4 * mantissa : Nat) * quarter
    high := (4 * mantissa + 2 : Nat) * quarter
    closed := mantissa % 2 = 0 }

/-- Whether a fraction is rounded to the number. -/
def holds (interval : RoundingInterval) (fraction : Rat) : Bool :=
  if interval.closed then interval.low ≤ fraction ∧ fraction ≤ interval.high
  else interval.low < fraction ∧ fraction < interval.high

/-- The multiple of a power of ten that is rounded to the number, if there is one. Of two the nearer
is taken, and the even one when both are as near. -/
def onGrid? (interval : RoundingInterval) (power : Int) : Option Nat :=
  let unit : Rat := 10 ^ power
  let lower := (interval.value / unit).floor.toNat
  let middle := (lower + lower + 1 : Nat) * unit / 2
  let nearer := if interval.value < middle ∨ interval.value = middle ∧ lower % 2 = 0
    then [lower, lower + 1] else [lower + 1, lower]
  nearer.find? fun n => interval.holds (n * unit)

/-- A multiple that is chosen is rounded to the number. -/
theorem holds_of_onGrid? {interval : RoundingInterval} {power : Int} {n : Nat}
    (h : interval.onGrid? power = some n) : interval.holds (n * 10 ^ power) := by
  simpa using List.find?_some h

end RoundingInterval

namespace Decimal

/-- Number of digits that are enough for every double. -/
def enoughDigits : Nat := 17

/-- Number of digits before the point. -/
def pointPlace (value : Decimal) : Int :=
  (Nat.toDigits 10 value.mantissa).length + value.exponent

/-- The decimal with the fewest digits that stands for the same double. -/
def shortest (value : Decimal) : Decimal :=
  let double := Float.ofScientific value.mantissa (value.exponent < 0) value.exponent.natAbs
  let interval := RoundingInterval.ofBits double.toBits.toNat
  let grids := (List.range (enoughDigits + 2)).map fun (i : Nat) => value.pointPlace - i
  let found := grids.findSome? fun power =>
    (interval.onGrid? power).map fun n => (⟨value.negative, n, power⟩ : Decimal)
  found.getD value

/-- A decimal that lies close to a double is written as that double. -/
example : shortest ⟨false, 18446744073709551616, 0⟩ = ⟨false, 18446744073709552, 3⟩ := by
  decide +kernel

/-- Half the distance of two doubles goes to the even digit. -/
example : shortest ⟨false, 298023223876953125, -25⟩ = ⟨false, 29802322387695312, -24⟩ := by
  decide +kernel

end Decimal
end LinkedNotes
