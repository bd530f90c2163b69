/-!
# Decimal numbers

A decimal is a natural number of units on a power-of-ten grid. It is written positionally:
all digits, with a point where the grid is finer than one, and never an exponent.
-/

namespace LoxTools

/-- The number `units · 10 ^ exponent`. -/
structure Decimal where
  /-- how many steps of the grid -/
  units : Nat
  /-- the power of ten that one step is -/
  exponent : Int
  deriving DecidableEq, Repr

namespace Decimal

/-- Digits with a point before the last `places` of them, and a zero before the point if no
digit stands there. -/
def pointed (digits : List Char) (places : Nat) : List Char :=
  let padded := List.replicate (places + 1 - digits.length) '0' ++ digits
  padded.take (padded.length - places) ++ '.' :: padded.drop (padded.length - places)

/-- **Positional notation.** -/
def positional (d : Decimal) : List Char :=
  let digits := Nat.toDigits 10 d.units
  if 0 ≤ d.exponent then digits ++ List.replicate d.exponent.toNat '0'
  else pointed digits (-d.exponent).toNat

end Decimal

end LoxTools
