/-!
# Binary floating point with 64 bits

The values that a numeric literal with a fraction or an exponent can denote: the finite numbers of
the format binary64 and the two infinities. No literal denotes a NaN, so `Binary64` has none.

Apart from the sign, a value is kept as its bit pattern. Patterns are ordered as the values are,
and one more in the pattern is the next larger value; so rounding can add to a pattern and need
not care whether the sum leaves the fraction, the exponent or the finite numbers.

A pattern stands for `significand * 2 ^ exponent`. All subnormal numbers share the exponent of the
smallest normal ones. Powers are written `Nat.pow`, since `^` goes through another instance in the
modules that import Mathlib.
-/

namespace AngleLexer

namespace Binary64

/-- How many bits of a pattern hold the fraction. -/
def fractionBits : Nat := 52

/-- The exponent of the smallest positive number. -/
def minExponent : Int := -1074

/-- The pattern of infinity, without its sign. -/
def infinityBits : Nat := 2047 * Nat.pow 2 fractionBits

end Binary64

/-- A finite binary64 number or an infinity. -/
structure Binary64 where
  /-- whether the sign bit is set -/
  negative : Bool
  /-- the pattern without the sign bit -/
  magnitude : Nat
  /-- no pattern is that of a NaN -/
  magnitude_le : magnitude ≤ Binary64.infinityBits
deriving DecidableEq

namespace Binary64

/-- The full pattern of a value. -/
def bits (x : Binary64) : Nat :=
  (if x.negative then Nat.pow 2 63 else 0) + x.magnitude

/-- Whether a value is one of the two infinities. -/
def isInfinite (x : Binary64) : Bool := x.magnitude == infinityBits

/-- The exponent field of a pattern. -/
def exponentField (x : Binary64) : Nat := x.magnitude / Nat.pow 2 fractionBits

/-- The fraction field of a pattern. -/
def fraction (x : Binary64) : Nat := x.magnitude % Nat.pow 2 fractionBits

/-- The integer that is scaled by a power of two to give the absolute value. -/
def significand (x : Binary64) : Nat :=
  if x.exponentField = 0 then x.fraction else Nat.pow 2 fractionBits + x.fraction

/-- The power of two that scales the significand. -/
def exponent (x : Binary64) : Int :=
  minExponent + (x.exponentField - 1 : Nat)

end Binary64

end AngleLexer
