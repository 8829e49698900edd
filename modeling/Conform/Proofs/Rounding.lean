import Mathlib.Algebra.Group.Nat.Defs
import Conform.Number
/-!
# The nearest binary64 number of an integer

A binary64 number is the nearest one to a value if no other is closer and, where another one is as
close, its last significant bit is zero. There is one such number up to the sign of zero, and it is
what integers are turned into. So a number that the format holds is turned into itself, and any
other one into a neighbour. Values are counted in units of `2 ^ -1074`, which makes all of them
integers.
-/

namespace Conform

namespace Binary64

/-- The value of a number, in units. -/
def value (number : Binary64) : Int := if number.negative then -number.units else number.units

/-- The zero with a sign. -/
def IsNegativeZero (number : Binary64) : Prop := number.negative = true ∧ number.units = 0

/-- The last significant bit is zero. -/
def IsEven (number : Binary64) : Prop := number.units % (2 * spacing number.units) = 0

/-- How far a number is from a value. -/
def distance (number : Binary64) (target : Int) : Nat := (number.value - target).natAbs

/-- A number is the nearest one to a value, ties to even. -/
structure IsNearest (number : Binary64) (target : Int) : Prop where
  /-- No number is closer. -/
  closest : ∀ other : Binary64, number.distance target ≤ other.distance target
  /-- Where another number is as close, the last significant bit is zero. -/
  even_of_tie : ∀ other : Binary64, other.distance target = number.distance target →
    other.value = number.value ∨ number.IsEven

/-- Numbers are the same if they have the same value, and both are negative zero or neither is. -/
theorem eq_iff {left right : Binary64} :
    left = right ↔ left.value = right.value ∧ (left.IsNegativeZero ↔ right.IsNegativeZero) := by
  constructor
  · rintro rfl
    exact ⟨rfl, .rfl⟩
  · intro ⟨same, zeros⟩
    obtain ⟨negative, units, representable⟩ := left
    obtain ⟨negative', units', representable'⟩ := right
    simp only [value, IsNegativeZero] at same zeros
    have magnitude : units = units' := by
      revert same
      cases negative <;> cases negative' <;> simp only [Bool.false_eq_true, ite_true, ite_false] <;>
        omega
    subst magnitude
    have sign : negative = negative' := by
      rcases Nat.eq_zero_or_pos units with rfl | positive
      · exact Bool.eq_iff_iff.mpr (by simpa only [and_true] using zeros)
      · revert same
        cases negative <;> cases negative' <;>
          simp only [Bool.false_eq_true, Bool.true_eq_false, ite_true, ite_false, imp_false,
            implies_true] <;> omega
    subst sign
    rfl

/-- The spacing grows with the length of a magnitude. -/
theorem spacing_dvd_spacing {units other : Nat} (shorter : units.log2 ≤ other.log2) :
    spacing units ∣ spacing other := by
  rw [spacing, spacing, Nat.one_shiftLeft, Nat.one_shiftLeft]
  exact Nat.pow_dvd_pow 2 (by omega)

/-- The greatest magnitude that is not above some units and a multiple of the spacing there. -/
def below (units : Nat) : Nat := units / spacing units * spacing units

/-- Units are less than one spacing above the magnitude below them. -/
theorem below_add_mod (units : Nat) : below units + units % spacing units = units :=
  Nat.div_add_mod' units (spacing units)

/-- The power of two that starts some units is not above the magnitude below them. -/
theorem two_pow_log2_le_below {units : Nat} (nonzero : units ≠ 0) :
    2 ^ units.log2 ≤ below units := by
  obtain ⟨count, whole⟩ : spacing units ∣ 2 ^ units.log2 := by
    rw [spacing, Nat.one_shiftLeft]
    exact Nat.pow_dvd_pow 2 (Nat.sub_le _ _)
  have reached := Nat.log2_self_le nonzero
  rw [whole, Nat.mul_comm] at reached ⊢
  exact Nat.mul_le_mul_right _ ((Nat.le_div_iff_mul_le (spacing_pos units)).mpr reached)

/-- No representable magnitude lies strictly between the two neighbours of some units. One that is
not shorter is a multiple of the spacing, as both neighbours are; a shorter one is below the power
of two that starts the units. -/
theorem le_below_or_above_le (units : Nat) {other : Nat} (fits : other % spacing other = 0) :
    other ≤ below units ∨ below units + spacing units ≤ other := by
  by_cases longer : units.log2 ≤ other.log2
  · obtain ⟨count, rfl⟩ : spacing units ∣ other :=
      Nat.dvd_trans (spacing_dvd_spacing longer) (Nat.dvd_of_mod_eq_zero fits)
    rw [below, ← Nat.succ_mul, Nat.mul_comm (spacing units)]
    rcases Nat.lt_or_ge (units / spacing units) count with more | fewer
    · exact .inr (Nat.mul_le_mul_right _ more)
    · exact .inl (Nat.mul_le_mul_right _ fewer)
  · left
    have nonzero : units ≠ 0 := by
      rintro rfl
      exact longer (Nat.zero_le _)
    have start : other < 2 ^ units.log2 :=
      Nat.lt_of_lt_of_le Nat.lt_log2_self (Nat.pow_le_pow_right (by decide) (by omega))
    exact Nat.le_of_lt (Nat.lt_of_lt_of_le start (two_pow_log2_le_below nonzero))

/-- Whole units are rounded to the neighbour that is closer, or even where both are as close. -/
theorem roundUnits_cases (units : Nat) :
    (roundUnits units 1 = below units ∧ 2 * (units % spacing units) ≤ spacing units ∧
      (2 * (units % spacing units) = spacing units → units / spacing units % 2 = 0)) ∨
    (roundUnits units 1 = below units + spacing units ∧
      spacing units ≤ 2 * (units % spacing units) ∧
      (2 * (units % spacing units) = spacing units → (units / spacing units + 1) % 2 = 0)) := by
  simp only [roundUnits, Nat.div_one, Nat.one_mul, nearestEven]
  split
  · exact .inl ⟨rfl, by omega, by omega⟩
  · exact .inr ⟨Nat.succ_mul _ _, by omega, by omega⟩

/-- No representable magnitude is closer to whole units than what they are rounded to. -/
theorem roundUnits_closest (units : Nat) {other : Nat} (fits : other % spacing other = 0) :
    ((roundUnits units 1 : Int) - units).natAbs ≤ ((other : Int) - units).natAbs := by
  have between := below_add_mod units
  have within := Nat.mod_lt units (spacing_pos units)
  have apart := le_below_or_above_le units fits
  rcases roundUnits_cases units with ⟨rounded, near, _⟩ | ⟨rounded, near, _⟩
  · rw [rounded]
    omega
  · rw [rounded]
    omega

/-- Units are not rounded to zero if some magnitude between is representable. -/
theorem roundUnits_pos {units other : Nat} (fits : other % spacing other = 0) (positive : 0 < other)
    (within : other ≤ units) : 0 < roundUnits units 1 := by
  have closest := roundUnits_closest units fits
  omega

/-- An even significand that is not too long, at any scale, leaves the last significant bit zero. -/
theorem scaled_mod_two_spacing (significand shift : Nat) (short : significand ≤ significandBound)
    (even : significand % 2 = 0) :
    significand * 2 ^ shift % (2 * spacing (significand * 2 ^ shift)) = 0 := by
  apply Nat.mod_eq_zero_of_dvd
  rw [significandBound, Nat.one_shiftLeft] at short
  rw [spacing, Nat.one_shiftLeft]
  by_cases zero : significand = 0
  · simp [zero]
  have scale := Nat.two_pow_pos shift
  have nonzero := Nat.mul_ne_zero zero (Nat.ne_of_gt scale)
  rcases Nat.lt_or_eq_of_le short with small | carry
  · have scaled := Nat.mul_lt_mul_of_pos_right small scale
    rw [← Nat.pow_add] at scaled
    have log := (Nat.log2_lt nonzero).mpr scaled
    have divides : 2 ^ ((significand * 2 ^ shift).log2 - 52) ∣ 2 ^ shift :=
      Nat.pow_dvd_pow 2 (by omega)
    exact Nat.mul_dvd_mul (Nat.dvd_of_mod_eq_zero even) divides
  · rw [carry, ← Nat.pow_add, Nat.log2_two_pow, Nat.mul_comm, ← Nat.pow_succ]
    exact Nat.pow_dvd_pow 2 (by omega)

/-- A significand of full length leaves the spacing to its scale. -/
theorem spacing_scaled {significand : Nat} (long : 2 ^ 52 ≤ significand)
    (short : significand < 2 ^ 53) (shift : Nat) :
    spacing (significand * 2 ^ shift) = 2 ^ shift := by
  have scale := Nat.two_pow_pos shift
  have nonzero : significand * 2 ^ shift ≠ 0 := Nat.mul_ne_zero (by omega) (Nat.ne_of_gt scale)
  have log : (significand * 2 ^ shift).log2 = 52 + shift := by
    rw [Nat.log2_eq_iff nonzero]
    constructor
    · rw [Nat.pow_add]
      exact Nat.mul_le_mul_right _ long
    · rw [Nat.add_right_comm, Nat.pow_add]
      exact Nat.mul_lt_mul_of_pos_right short scale
  rw [spacing, log, Nat.one_shiftLeft, Nat.add_sub_cancel_left]

/-- Where two neighbours are as close, the spacing is even, so the units have more than 53 bits. -/
theorem le_log2_of_tie {units : Nat} (tie : 2 * (units % spacing units) = spacing units) :
    53 ≤ units.log2 := by
  refine Nat.le_of_not_lt fun shallow => ?_
  have whole : units.log2 - 52 = 0 := by omega
  have one : spacing units = 1 := by rw [spacing, Nat.one_shiftLeft, whole, Nat.pow_zero]
  rw [one] at tie
  omega

/-- Of the two neighbours that are as close to whole units, only one has a last significant bit that
is zero. -/
theorem not_both_even {units : Nat} (tie : 2 * (units % spacing units) = spacing units)
    (evenBelow : below units % (2 * spacing (below units)) = 0)
    (evenAbove : (below units + spacing units) % (2 * spacing (below units + spacing units)) = 0) :
    False := by
  have wide : spacing units = 2 ^ (units.log2 - 52) := by rw [spacing, Nat.one_shiftLeft]
  have log := le_log2_of_tie tie
  have nonzero : units ≠ 0 := by
    rintro rfl
    simp at log
  have long : 2 ^ 52 ≤ units / spacing units := by
    rw [Nat.le_div_iff_mul_le (spacing_pos units), wide, ← Nat.pow_add,
      show 52 + (units.log2 - 52) = units.log2 by omega]
    exact Nat.log2_self_le nonzero
  have short : units / spacing units < 2 ^ 53 := by
    have bound := div_spacing_lt units
    rwa [significandBound, Nat.one_shiftLeft] at bound
  have even {significand : Nat} (long : 2 ^ 52 ≤ significand) (short : significand < 2 ^ 53)
      (zero : significand * spacing units % (2 * spacing (significand * spacing units)) = 0) :
      significand % 2 = 0 := by
    rw [wide, spacing_scaled long short] at zero
    exact Nat.mod_eq_zero_of_dvd
      (Nat.dvd_of_mul_dvd_mul_right (Nat.two_pow_pos _) (Nat.dvd_of_mod_eq_zero zero))
  have first : units / spacing units % 2 = 0 := even long short evenBelow
  rw [below, ← Nat.succ_mul] at evenAbove
  have second : (units / spacing units + 1) % 2 = 0 := even (by omega) (by omega) evenAbove
  omega

/-- Another representable magnitude that is as close to whole units as what they are rounded to is
the other neighbour, and the units are half way between both. -/
theorem neighbours_of_tie {units other : Nat} (fits : other % spacing other = 0)
    (different : other ≠ roundUnits units 1)
    (tie : ((other : Int) - units).natAbs = ((roundUnits units 1 : Int) - units).natAbs) :
    2 * (units % spacing units) = spacing units ∧
      ((other = below units + spacing units ∧ roundUnits units 1 = below units) ∨
        (other = below units ∧ roundUnits units 1 = below units + spacing units)) := by
  have between := below_add_mod units
  have within := Nat.mod_lt units (spacing_pos units)
  have apart := le_below_or_above_le units fits
  rcases roundUnits_cases units with ⟨rounded, near, _⟩ | ⟨rounded, near, _⟩
  · rw [rounded] at tie different ⊢
    omega
  · rw [rounded] at tie different ⊢
    omega

/-- Whole units half way between two representable magnitudes are rounded to one whose last
significant bit is zero. -/
theorem roundUnits_even {units : Nat} (half : 2 * (units % spacing units) = spacing units) :
    roundUnits units 1 % (2 * spacing (roundUnits units 1)) = 0 := by
  have short : units / spacing units < significandBound := div_spacing_lt units
  rcases roundUnits_cases units with ⟨rounded, _, even⟩ | ⟨rounded, _, even⟩
  · have scaled := scaled_mod_two_spacing (units / spacing units) (units.log2 - 52)
      (Nat.le_of_lt short) (even half)
    rwa [← Nat.one_shiftLeft, ← spacing, ← below, ← rounded] at scaled
  · have scaled := scaled_mod_two_spacing (units / spacing units + 1) (units.log2 - 52)
      short (even half)
    rwa [← Nat.one_shiftLeft, ← spacing, Nat.succ_mul, ← below, ← rounded] at scaled

/-- There are units in one. -/
theorem unitsPerOne_pos : 0 < unitsPerOne := by decide +kernel

/-- Zero is representable. -/
theorem zero_mod_spacing : 0 % spacing 0 = 0 := Nat.zero_mod _

/-- The value of a positive number is its magnitude. -/
theorem value_positive (units : Nat) (representable : Representable units) :
    value ⟨false, units, representable⟩ = units := rfl

/-- The value of a negative number is the opposite of its magnitude. -/
theorem value_negative (units : Nat) (representable : Representable units) :
    value ⟨true, units, representable⟩ = -units := rfl

/-- The value of a number is its magnitude or the opposite of it. -/
theorem value_cases (number : Binary64) :
    number.value = number.units ∨ number.value = -number.units := by
  cases sign : number.negative <;> simp [value, sign]

end Binary64

namespace WordInt

open Binary64

/-- The value of an integer, in units. -/
def value (number : WordInt) : Int := number.val * unitsPerOne

/-- The magnitude of an integer, in units. -/
def units (number : WordInt) : Nat := number.val.natAbs * unitsPerOne

/-- An integer and the number that it is turned into are both below zero, or neither is. -/
theorem value_toBinary64_cases (number : WordInt) :
    (number.value = number.units ∧ number.toBinary64.value = roundUnits number.units 1) ∨
    (number.value = -number.units ∧ number.toBinary64.value = -roundUnits number.units 1) := by
  simp only [value, units, toBinary64, ofWhole, Binary64.value, decide_eq_true_eq]
  by_cases sign : number.val < 0
  · have magnitude : (number.val.natAbs : Int) = -number.val := by omega
    rw [if_pos sign, Int.natCast_mul, magnitude, Int.neg_mul, Int.neg_neg]
    exact .inr ⟨rfl, rfl⟩
  · have magnitude : (number.val.natAbs : Int) = number.val := by omega
    rw [if_neg sign, Int.natCast_mul, magnitude]
    exact .inl ⟨rfl, rfl⟩

/-- Rounding an integer takes it no farther than zero is. -/
theorem roundUnits_within (number : WordInt) :
    ((roundUnits number.units 1 : Int) - number.units).natAbs ≤ number.units := by
  have closest := roundUnits_closest number.units zero_mod_spacing
  rwa [Int.natCast_zero, Int.zero_sub, Int.natAbs_neg, Int.natAbs_natCast] at closest

/-- A number with another value that is as close has another magnitude, which is as close. -/
theorem tie_of_units {number : WordInt} {other : Binary64}
    (tie : other.distance number.value = number.toBinary64.distance number.value)
    (different : other.value ≠ number.toBinary64.value) :
    other.units ≠ roundUnits number.units 1 ∧
      ((other.units : Int) - number.units).natAbs =
        ((roundUnits number.units 1 : Int) - number.units).natAbs := by
  have within := number.roundUnits_within
  simp only [distance] at tie
  rcases number.value_toBinary64_cases with ⟨target, rounded⟩ | ⟨target, rounded⟩
  · rw [target, rounded] at tie
    rw [rounded] at different
    rcases other.value_cases with written | written <;> rw [written] at tie different <;> omega
  · rw [target, rounded] at tie
    rw [rounded] at different
    rcases other.value_cases with written | written <;> rw [written] at tie different <;> omega

/-- An integer is turned into the nearest binary64 number, ties to even. -/
theorem isNearest_toBinary64 (number : WordInt) : number.toBinary64.IsNearest number.value := by
  constructor
  · intro other
    have within := number.roundUnits_within
    have closest := roundUnits_closest number.units other.representable.1
    simp only [distance]
    rcases number.value_toBinary64_cases with ⟨target, rounded⟩ | ⟨target, rounded⟩
    · rw [target, rounded]
      rcases other.value_cases with written | written <;> rw [written] <;> omega
    · rw [target, rounded]
      rcases other.value_cases with written | written <;> rw [written] <;> omega
  · intro other tie
    by_cases same : other.value = number.toBinary64.value
    · exact .inl same
    · obtain ⟨different, level⟩ := tie_of_units tie same
      have half := (neighbours_of_tie other.representable.1 different level).1
      exact .inr (roundUnits_even half)

/-- The nearest binary64 number to an integer has the value of the one that it is turned into: of
two neighbours that are as close, one is even. -/
theorem value_eq_of_isNearest {number : WordInt} {candidate : Binary64}
    (nearest : candidate.IsNearest number.value) :
    candidate.value = number.toBinary64.value := by
  have rounded := number.isNearest_toBinary64
  have tie : candidate.distance number.value = number.toBinary64.distance number.value :=
    Nat.le_antisymm (nearest.closest _) (rounded.closest _)
  by_cases same : candidate.value = number.toBinary64.value
  · exact same
  · have even : candidate.IsEven :=
      (nearest.even_of_tie _ tie.symm).resolve_left fun other => same other.symm
    obtain ⟨different, level⟩ := tie_of_units tie same
    obtain ⟨half, neighbours⟩ := neighbours_of_tie candidate.representable.1 different level
    have even' := roundUnits_even half
    rw [IsEven] at even
    rcases neighbours with ⟨found, found'⟩ | ⟨found, found'⟩
    · rw [found] at even
      rw [found'] at even'
      exact (not_both_even half even' even).elim
    · rw [found] at even
      rw [found'] at even'
      exact (not_both_even half even even').elim

/-- An integer that the format holds is turned into itself. -/
theorem value_toBinary64_of_exact {number : WordInt} {candidate : Binary64}
    (exact_ : candidate.value = number.value) : number.toBinary64.value = number.value := by
  have closest := number.isNearest_toBinary64.closest candidate
  simp only [distance, exact_] at closest
  omega

/-- No integer is turned into negative zero. -/
theorem not_isNegativeZero_toBinary64 (number : WordInt) :
    ¬ number.toBinary64.IsNegativeZero := by
  intro ⟨negative, zero⟩
  have positive : 0 < number.val.natAbs := by
    have sign : number.val < 0 := of_decide_eq_true negative
    omega
  have one : unitsPerOne % spacing unitsPerOne = 0 := by decide +kernel
  have large : unitsPerOne ≤ number.units := Nat.le_mul_of_pos_left _ positive
  exact absurd zero (Nat.ne_of_gt (roundUnits_pos one unitsPerOne_pos large))

/-- An integer of no more than 53 bits is held by the format. -/
theorem exists_value_eq {number : WordInt} (short : number.val.natAbs ≤ significandBound) :
    ∃ candidate : Binary64, candidate.value = number.value := by
  have fits : number.units % spacing number.units = 0 :=
    scaled_mod_spacing number.val.natAbs 1074 short
  have small : number.units < unitsBound := by
    have scaled := Nat.mul_le_mul_right unitsPerOne short
    have room : significandBound * unitsPerOne < unitsBound := by decide +kernel
    exact Nat.lt_of_le_of_lt scaled room
  have representable : Representable number.units := ⟨fits, small⟩
  rcases number.value_toBinary64_cases with ⟨same, _⟩ | ⟨opposite, _⟩
  · exact ⟨⟨false, _, representable⟩, (value_positive _ representable).trans same.symm⟩
  · exact ⟨⟨true, _, representable⟩, (value_negative _ representable).trans opposite.symm⟩

end WordInt

end Conform
