import Conform.Decimal.Basic
/-!
# Writing a decimal number

A layout is a record of decisions: which leading exponents are written positionally, and how the
rest is written with an exponent. `Layout.render` writes the significant digits of a magnitude in
such a layout and never changes them.
-/

namespace Conform.Decimal

/-- How the digits of a magnitude are laid out. -/
structure Layout where
  /-- The least leading exponent that is written positionally. -/
  leastPositional : Int
  /-- The greatest leading exponent that is written positionally. -/
  greatestPositional : Int
  /-- The fraction of a positional number that is whole. -/
  wholeFraction : List Char
  /-- The mark between the digits and the exponent. -/
  exponentMark : Char
  /-- The sign of an exponent that is not negative. -/
  positiveSign : List Char

namespace Layout

/-- Digits that start at or above the units, with the point after the units. -/
def renderLarge (layout : Layout) (digits : List Char) (leading : Nat) : List Char :=
  let whole := digits.take (leading + 1)
  let padding := List.replicate (leading + 1 - digits.length) '0'
  match digits.drop (leading + 1) with
  | [] => whole ++ padding ++ layout.wholeFraction
  | fraction => whole ++ '.' :: fraction

/-- Digits that start below the units, after as many zeros as their place needs. -/
def renderSmall (digits : List Char) (places : Nat) : List Char :=
  '0' :: '.' :: (List.replicate (places - 1) '0' ++ digits)

/-- One digit, the others as its fraction, and the signed exponent. -/
def renderExponent (layout : Layout) (digits : List Char) (leading : Int) : List Char :=
  let sign := if leading < 0 then ['-'] else layout.positiveSign
  let mantissa := match digits with
    | first :: second :: rest => first :: '.' :: second :: rest
    | short => short
  mantissa ++ layout.exponentMark :: (sign ++ Nat.toDigits 10 leading.natAbs)

/-- The text of a magnitude. -/
def render (layout : Layout) (number : Decimal) : String :=
  let digits := number.significantDigits
  let leading := number.leadingExponent
  String.ofList <|
    if leading < layout.leastPositional ∨ layout.greatestPositional < leading then
      layout.renderExponent digits leading
    else if leading < 0 then
      renderSmall digits leading.natAbs
    else
      layout.renderLarge digits leading.toNat

end Layout

end Conform.Decimal
