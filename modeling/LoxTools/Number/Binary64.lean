/-!
# Binary floating-point numbers

A number of the language is a 64-bit binary floating-point number, kept as its bit
pattern: one sign bit, eleven exponent bits, fifty-two fraction bits. A finite one is
`± significand · 2 ^ exponent`. Equality of numbers is not equality of patterns: the two
zeros are equal, and not-a-number is equal to nothing.
-/

namespace LoxTools

/-- A number as its bit pattern. -/
structure Binary64 where
  /-- sign, exponent and fraction, from the highest bit down -/
  bits : UInt64
  deriving DecidableEq, Repr

namespace Binary64

/-- Whether the sign bit is set. -/
def isNegative (x : Binary64) : Bool :=
  1 <<< 63 ≤ x.bits.toNat

/-- The eleven exponent bits. -/
def biasedExponent (x : Binary64) : Nat :=
  x.bits.toNat / (1 <<< 52) % (1 <<< 11)

/-- The fifty-two fraction bits. -/
def fraction (x : Binary64) : Nat :=
  x.bits.toNat % (1 <<< 52)

/-- Whether the pattern stands for no number. -/
def isNaN (x : Binary64) : Bool :=
  x.biasedExponent == 2047 && x.fraction != 0

/-- Whether the number is one of the two infinities. -/
def isInfinite (x : Binary64) : Bool :=
  x.biasedExponent == 2047 && x.fraction == 0

/-- Whether the number is one of the two zeros. -/
def isZero (x : Binary64) : Bool :=
  x.biasedExponent == 0 && x.fraction == 0

/-- The integer that a finite number is a power-of-two multiple of. -/
def significand (x : Binary64) : Nat :=
  if x.biasedExponent = 0 then x.fraction else x.fraction + (1 <<< 52)

/-- The power of two that goes with the significand. -/
def exponent (x : Binary64) : Int :=
  (max x.biasedExponent 1 : Nat) - 1075

/-- Whether the next smaller number is nearer than the next larger one: at a power of two
above the smallest normal number. -/
def isBinadeStart (x : Binary64) : Bool :=
  x.fraction == 0 && 1 < x.biasedExponent

/-- **Equality of numbers.** -/
def equals (x y : Binary64) : Bool :=
  !x.isNaN && !y.isNaN && (x.bits == y.bits || x.isZero && y.isZero)

end Binary64

end LoxTools
