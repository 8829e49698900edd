/-!
# Decimal numbers

A decimal number is a coefficient and a power of ten. Its leading digit stands at
`leadingExponent`, which is what layouts and range checks look at. Digits are characters, the most
significant first.
-/

namespace Conform

/-- A decimal number, `coefficient × 10 ^ exponent`. -/
structure Decimal where
  /-- The digits as one natural number. -/
  coefficient : Nat
  /-- The power of ten that the coefficient counts. -/
  exponent : Int
deriving DecidableEq

namespace Decimal

/-- A power of ten. -/
def powerOfTen (places : Nat) : Nat := Nat.pow 10 places

/-- The digits of the coefficient. -/
def digits (number : Decimal) : List Char := Nat.toDigits 10 number.coefficient

/-- The power of ten at which the leading digit stands. -/
def leadingExponent (number : Decimal) : Int :=
  number.exponent + (number.digits.length : Int) - 1

/-- The digits without the zeros that end them; zero keeps one digit. -/
def significantDigits (number : Decimal) : List Char :=
  match (number.digits.reverse.dropWhile (· == '0')).reverse with
  | [] => ['0']
  | digits => digits

/-- The value of one decimal digit. -/
def digitValue (digit : Char) : Nat := digit.toNat - '0'.toNat

/-- The natural number that a list of digits denotes. -/
def ofDigits (digits : List Char) : Nat :=
  digits.foldl (fun value digit => 10 * value + digitValue digit) 0

end Decimal

end Conform
