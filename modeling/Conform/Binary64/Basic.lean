/-!
# Finite binary64 numbers as whole numbers of units

Every finite binary64 magnitude is a whole number of units of `2 ^ -1074`, and it is such a
number exactly when it has at most 53 significant bits and stays below the overflow bound. A
number is therefore a sign and a representable count of units: two numbers have the same
encoding iff both parts are equal. Rounding works on a quotient of naturals, so no rational or
machine arithmetic is involved; `roundUnits_mod_spacing` says that its result is representable
wherever it stays below the bound.
-/

namespace Conform

namespace Binary64

/-- The number of units that make one. -/
def unitsPerOne : Nat := 1 <<< 1074

/-- The least power of two that is too large for a finite magnitude. -/
def unitsBound : Nat := 1 <<< 2098

/-- The least significand that is too long. -/
def significandBound : Nat := 1 <<< 53

/-- The spacing of the representable magnitudes around a whole number of units. -/
def spacing (units : Nat) : Nat := 1 <<< (units.log2 - 52)

/-- At most 53 significant bits, below the overflow bound. -/
def Representable (units : Nat) : Prop := units % spacing units = 0 ∧ units < unitsBound

instance (units : Nat) : Decidable (Representable units) :=
  inferInstanceAs (Decidable (_ ∧ _))

end Binary64

/-- A finite binary64 number. Zero has both signs. -/
structure Binary64 where
  /-- The sign, kept for zero as well. -/
  negative : Bool
  /-- The magnitude in units of `2 ^ -1074`. -/
  units : Nat
  /-- The magnitude is one that the format holds. -/
  representable : Binary64.Representable units
deriving DecidableEq

namespace Binary64

/-- The whole number nearest to a quotient; a half goes to the even neighbour. -/
def nearestEven (numerator denominator : Nat) : Nat :=
  let quotient := numerator / denominator
  let twice := 2 * (numerator % denominator)
  if twice < denominator ∨ (twice = denominator ∧ quotient % 2 = 0) then quotient
  else quotient + 1

/-- The units of a quotient, rounded to 53 significant bits, ties to even. -/
def roundUnits (numerator denominator : Nat) : Nat :=
  let step := spacing (numerator / denominator)
  nearestEven numerator (denominator * step) * step

/-- The nearest whole number is the quotient or its successor. -/
theorem nearestEven_le (numerator denominator : Nat) :
    nearestEven numerator denominator ≤ numerator / denominator + 1 := by
  unfold nearestEven
  dsimp only
  split <;> omega

/-- A spacing is not zero. -/
theorem spacing_pos (units : Nat) : 0 < spacing units := by
  rw [spacing, Nat.one_shiftLeft]
  exact Nat.two_pow_pos _

/-- A spacing exceeds the units around it by no more than one. -/
theorem spacing_le (units : Nat) : spacing units ≤ units + 1 := by
  by_cases zero : units = 0
  · subst zero
    decide
  · rw [spacing, Nat.one_shiftLeft]
    refine Nat.le_succ_of_le (Nat.le_trans ?_ (Nat.log2_self_le zero))
    exact Nat.pow_le_pow_right (by decide) (Nat.sub_le _ _)

/-- A whole number of units has a significand that is not too long. -/
theorem div_spacing_lt (units : Nat) : units / spacing units < significandBound := by
  by_cases zero : units = 0
  · subst zero
    decide
  · apply (Nat.div_lt_iff_lt_mul (spacing_pos units)).2
    rw [spacing, significandBound, Nat.one_shiftLeft, Nat.one_shiftLeft, ← Nat.pow_add]
    refine Nat.lt_of_lt_of_le Nat.lt_log2_self ?_
    exact Nat.pow_le_pow_right (by decide) (by omega)

/-- A significand that is not too long, at any scale, has no more than 53 significant bits. -/
theorem scaled_mod_spacing (significand shift : Nat) (short : significand ≤ significandBound) :
    (significand * 1 <<< shift) % spacing (significand * 1 <<< shift) = 0 := by
  apply Nat.mod_eq_zero_of_dvd
  rw [significandBound, Nat.one_shiftLeft] at short
  rw [spacing, Nat.one_shiftLeft, Nat.one_shiftLeft]
  by_cases zero : significand = 0
  · simp [zero]
  have scale := Nat.two_pow_pos shift
  have nonzero := Nat.mul_ne_zero zero (Nat.ne_of_gt scale)
  rcases Nat.lt_or_eq_of_le short with small | carry
  · have scaled := Nat.mul_lt_mul_of_pos_right small scale
    rw [← Nat.pow_add] at scaled
    have log := (Nat.log2_lt nonzero).2 scaled
    exact Nat.dvd_trans (Nat.pow_dvd_pow 2 (by omega)) (Nat.dvd_mul_left _ _)
  · rw [carry, ← Nat.pow_add, Nat.log2_two_pow]
    exact Nat.pow_dvd_pow 2 (by omega)

/-- A rounded magnitude has no more than 53 significant bits. -/
theorem roundUnits_mod_spacing (numerator denominator : Nat) :
    roundUnits numerator denominator % spacing (roundUnits numerator denominator) = 0 := by
  apply scaled_mod_spacing
  refine Nat.le_trans (nearestEven_le _ _) ?_
  rw [← Nat.div_div_eq_div_mul]
  exact div_spacing_lt _

/-- A rounded magnitude is at most twice the whole units of the quotient, and one more. -/
theorem roundUnits_le (numerator denominator : Nat) :
    roundUnits numerator denominator ≤ 2 * (numerator / denominator) + 1 := by
  unfold roundUnits
  dsimp only
  have rounded := nearestEven_le numerator (denominator * spacing (numerator / denominator))
  rw [← Nat.div_div_eq_div_mul] at rounded
  generalize numerator / denominator = units at rounded
  have whole := Nat.div_mul_le_self units (spacing units)
  have step := spacing_le units
  calc
    _ ≤ (units / spacing units + 1) * spacing units := Nat.mul_le_mul_right _ rounded
    _ = units / spacing units * spacing units + spacing units := Nat.succ_mul _ _
    _ ≤ 2 * units + 1 := by omega

/-- The nearest number to a quotient of units, or nothing when the format has no such number. -/
def ofUnits? (negative : Bool) (numerator denominator : Nat) : Option Binary64 :=
  if small : roundUnits numerator denominator < unitsBound then
    some ⟨negative, roundUnits numerator denominator, roundUnits_mod_spacing _ _, small⟩
  else
    none

/-- The nearest number to a whole number of at most 64 bits. -/
def ofWhole (negative : Bool) (magnitude : Nat) (small : magnitude ≤ 0x10000000000000000) :
    Binary64 where
  negative := negative
  units := roundUnits (magnitude * unitsPerOne) 1
  representable := by
    refine ⟨roundUnits_mod_spacing _ _, Nat.lt_of_le_of_lt (roundUnits_le _ _) ?_⟩
    rw [Nat.div_one]
    have scaled := Nat.mul_le_mul_right unitsPerOne small
    have room : 2 * (0x10000000000000000 * unitsPerOne) + 1 < unitsBound := by decide +kernel
    omega

/-- Numeric equality, for which the two zeros are one number. -/
def numericEq (left right : Binary64) : Bool :=
  left.units == right.units && (left.negative == right.negative || left.units == 0)

end Binary64

end Conform
