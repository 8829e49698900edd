import Conform.Binary64.Decimal
import Conform.Decimal.Layout
/-!
# Numbers of a JSON value

A number is an integer that fits a 64-bit word, signed or unsigned, or a finite binary64 number.
The two forms stay apart: `1` and `1.0` are different numbers with different texts. Two relations
compare them. `Number.same` asks for the same value and takes an integer as the nearest binary64
number where the other side is one, so that negative zero equals only itself. `==` never relates
an integer to a binary64 number and follows numeric equality among the latter.
-/

namespace Conform

/-- An integer that fits a 64-bit word, signed or unsigned. -/
structure WordInt where
  /-- The integer. -/
  val : Int
  /-- Some 64-bit word holds it. -/
  fits : -0x8000000000000000 ≤ val ∧ val < 0x10000000000000000
deriving DecidableEq

namespace WordInt

/-- The integer as a word integer, or nothing when no 64-bit word holds it. -/
def ofInt? (value : Int) : Option WordInt :=
  if fits : -0x8000000000000000 ≤ value ∧ value < 0x10000000000000000 then
    some ⟨value, fits⟩
  else none

/-- Whether a signed 64-bit word holds the integer. -/
def fitsSigned (number : WordInt) : Bool := number.val < 0x8000000000000000

/-- The nearest binary64 number; zero becomes positive zero. -/
def toBinary64 (number : WordInt) : Binary64 :=
  Binary64.ofWhole (number.val < 0) number.val.natAbs (by have := number.fits; omega)

end WordInt

/-- A number of a JSON value. -/
inductive Number where
  /-- A number written without point and exponent. -/
  | integer (value : WordInt)
  /-- Any other number. -/
  | double (value : Binary64)

namespace Number

/-- Positional notation from `10 ^ -5` to below `10 ^ 16`, a whole number with `.0`, a sign on
every exponent. -/
def layout : Decimal.Layout where
  leastPositional := -5
  greatestPositional := 15
  wholeFraction := ['.', '0']
  exponentMark := 'e'
  positiveSign := ['+']

/-- The text of a binary64 number: its shortest digits in the layout, after the sign. -/
def doubleText (value : Binary64) : String :=
  let magnitude := layout.render (Binary64.shortest value.units)
  if value.negative then "-" ++ magnitude else magnitude

/-- The text of a number. -/
def text : Number → String
  | .integer value => toString value.val
  | .double value => doubleText value

/-- The nearest binary64 number. -/
def toBinary64 : Number → Binary64
  | .integer value => value.toBinary64
  | .double value => value

/-- The integer written by a sign and digits alone. Negative zero is none. -/
def writtenInteger? (negative : Bool) (magnitude : Nat) : Option WordInt :=
  if negative then
    if magnitude = 0 then none else WordInt.ofInt? (-(magnitude : Int))
  else WordInt.ofInt? magnitude

/-- The number written by a sign, digits and a power of ten. It is an integer if it has neither
point nor exponent and fits a word; nothing stands for a number that is too large. -/
def ofWritten? (negative : Bool) (written : Decimal) (plain : Bool) : Option Number :=
  match if plain then writtenInteger? negative written.coefficient else none with
  | some value => some (.integer value)
  | none => (Binary64.ofDecimal? negative written).map .double

/-- The same value: integers by value, and as binary64 numbers with equal encodings where one
side is a binary64 number. -/
def same : Number → Number → Bool
  | .integer left, .integer right => left == right
  | left, right => left.toBinary64 == right.toBinary64

/-- Equality that keeps integers and binary64 numbers apart and identifies the two zeros. -/
def beq : Number → Number → Bool
  | .integer left, .integer right => left == right
  | .double left, .double right => left.numericEq right
  | _, _ => false

instance : BEq Number := ⟨beq⟩

end Number

end Conform
