import Conform.Binary64.Basic
import Conform.Decimal.Basic
/-!
# Binary64 numbers and decimal numbers

Reading rounds a decimal number to the nearest binary64 number, ties to even. Writing finds the
shortest decimal number that reads back: for one digit, two digits and so on it tests the two
neighbours of the magnitude among the decimal numbers with that many digits, and the first hit
wins; of two hits the nearer one is taken, the even one if both are as near. Everything is exact
arithmetic on naturals.
-/

namespace Conform.Binary64

/-- Leading exponents from this one on are too large for every finite magnitude. -/
def overflowExponent : Int := 310

/-- Magnitudes whose leading exponent is below this one round to zero. -/
def underflowExponent : Int := -330

/-- The nearest number to a decimal magnitude, or nothing when it is too large. -/
def ofDecimal? (negative : Bool) (number : Decimal) : Option Binary64 :=
  if number.coefficient = 0 ∨ number.leadingExponent < underflowExponent then
    ofUnits? negative 0 1
  else if overflowExponent ≤ number.leadingExponent then
    none
  else if number.exponent < 0 then
    ofUnits? negative (number.coefficient * unitsPerOne)
      (Decimal.powerOfTen number.exponent.natAbs)
  else
    ofUnits? negative
      (number.coefficient * Decimal.powerOfTen number.exponent.natAbs * unitsPerOne) 1

/-! ## The numbers that read back

Bounds are counted in quarter units, so that the half spacing on either side of a magnitude is a
whole number of them also where the spacing changes. -/

/-- The quarter units of a magnitude. -/
def quarters (units : Nat) : Nat := 4 * units

/-- Half the spacing above a magnitude, in quarter units. -/
def halfAbove (units : Nat) : Nat := 2 * spacing units

/-- Half the spacing below a magnitude, in quarter units; it narrows below a power of two. -/
def halfBelow (units : Nat) : Nat :=
  if units = 1 <<< units.log2 ∧ 1 < spacing units then spacing units else 2 * spacing units

/-- A quotient of quarter units rounds to the magnitude: it lies within half a spacing, the ends
included exactly when the last significant bit of the magnitude is zero. -/
def ReadsBack (units numerator denominator : Nat) : Prop :=
  let lower := (quarters units - halfBelow units) * denominator
  let upper := (quarters units + halfAbove units) * denominator
  if units / spacing units % 2 = 0 then lower ≤ numerator ∧ numerator ≤ upper
  else lower < numerator ∧ numerator < upper

instance (units numerator denominator : Nat) : Decidable (ReadsBack units numerator denominator) :=
  inferInstanceAs (Decidable (ite _ _ _))

/-- The power of ten at which a positive magnitude has its leading digit. -/
def leadingExponent (units : Nat) : Int :=
  ((Nat.toDigits 10 (units * Decimal.powerOfTen 324 / unitsPerOne)).length : Int) - 325

/-- A magnitude as a quotient: its quarter units over those of one last place. -/
def inPlaces (units : Nat) (place : Int) : Nat × Nat :=
  (quarters units * Decimal.powerOfTen (-place).toNat,
    Decimal.powerOfTen place.toNat * quarters unitsPerOne)

/-- The decimal number with the given last place that is nearest to a magnitude. -/
def nearestAt (units : Nat) (place : Int) : Decimal :=
  let (numerator, denominator) := inPlaces units place
  ⟨nearestEven numerator denominator, place⟩

/-- A neighbour of a magnitude with the given last place that reads back, the nearer one if both
do. -/
def neighbour? (units : Nat) (place : Int) : Option Decimal :=
  let (numerator, denominator) := inPlaces units place
  let low := numerator / denominator
  let hits (coefficient : Nat) : Bool :=
    decide (ReadsBack units (coefficient * denominator) (Decimal.powerOfTen (-place).toNat))
  match hits low, hits (low + 1) with
  | true, true => some (nearestAt units place)
  | true, false => some ⟨low, place⟩
  | false, true => some ⟨low + 1, place⟩
  | false, false => none

/-- The shortest decimal number that reads back as a magnitude. With seventeen digits the nearest
one always does. -/
def shortest (units : Nat) : Decimal :=
  if units = 0 then ⟨0, 0⟩
  else
    let leading := leadingExponent units
    ((List.range 16).findSome? fun count : Nat => neighbour? units (leading - count)).getD
      (nearestAt units (leading - 16))

end Conform.Binary64
