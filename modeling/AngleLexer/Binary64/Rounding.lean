import AngleLexer.Binary64.Basic

/-!
# Rounding a decimal to binary64

A decimal literal denotes an exact rational number, and its value is the binary64 number nearest
to that; of two that are equally near, the one with the even significand. Everything is computed
in integers, so the number of digits does not matter.

`magnitudeOfRatio` rounds a positive quotient. It picks the spacing of the format around the
quotient, rounds the quotient in that unit (`roundDiv`), and adds the result to the pattern that
the unit stands for. What rounds up past the largest finite number arrives at the pattern of
infinity.

`Decimal.toBinary64` first sets aside the decimals that are far too large or too small, whose power
of ten need not be computed to know the result.
-/

namespace AngleLexer

/-- The integer nearest to `n / d`; of two that are equally near, the even one. -/
def roundDiv (n d : Nat) : Nat :=
  let q := n / d
  let r := n % d
  if d < 2 * r ∨ (2 * r = d ∧ q % 2 = 1) then q + 1 else q

namespace Binary64

/-- The largest `e` for which `2 ^ e` does not exceed the positive quotient `n / d`. -/
def log2Ratio (n d : Nat) : Int :=
  let e : Int := (n.log2 : Int) - d.log2
  if d * Nat.pow 2 e.toNat ≤ n * Nat.pow 2 (-e).toNat then e else e - 1

/-- The pattern of the value nearest to the quotient `n / d`, without a sign. -/
def magnitudeOfRatio (n d : Nat) : Nat :=
  if n = 0 then 0
  else
    let unit : Int := max (log2Ratio n d - fractionBits) minExponent
    let steps := roundDiv (n * Nat.pow 2 (-unit).toNat) (d * Nat.pow 2 unit.toNat)
    min ((unit - minExponent).toNat * Nat.pow 2 fractionBits + steps) infinityBits

theorem magnitudeOfRatio_le (n d : Nat) : magnitudeOfRatio n d ≤ infinityBits := by
  unfold magnitudeOfRatio
  split
  · exact Nat.zero_le _
  · exact Nat.min_le_right _ _

/-- The value nearest to the quotient `n / d`, with the given sign. -/
def ofRatio (negative : Bool) (n d : Nat) : Binary64 :=
  ⟨negative, magnitudeOfRatio n d, magnitudeOfRatio_le n d⟩

/-- The zero of a given sign. -/
def zero (negative : Bool) : Binary64 := ⟨negative, 0, Nat.zero_le _⟩

/-- The infinity of a given sign. -/
def infinity (negative : Bool) : Binary64 := ⟨negative, infinityBits, Nat.le_refl _⟩

end Binary64

/-- The decimal number `significand * 10 ^ exponent`. -/
structure Decimal where
  /-- the digits, as a number -/
  significand : Nat
  /-- the power of ten that scales them -/
  exponent : Int
deriving DecidableEq

namespace Decimal

/-- The smallest power of ten that is beyond every finite binary64 number. -/
def overflowExponent : Int := 309

/-- A decimal below `2 ^ (-tinyExponent)` is nearer to zero than to any other value. -/
def tinyExponent : Int := 1075

/-- The binary64 number nearest to a decimal. A factor of ten is more than three factors of two,
which bounds a decimal with a negative exponent from above. -/
def toBinary64 (negative : Bool) (x : Decimal) : Binary64 :=
  if x.significand = 0 then .zero negative
  else if overflowExponent ≤ x.exponent then .infinity negative
  else if x.significand.log2 + 1 + tinyExponent ≤ -3 * x.exponent then .zero negative
  else
    .ofRatio negative (x.significand * Nat.pow 10 x.exponent.toNat) (Nat.pow 10 (-x.exponent).toNat)

end Decimal

end AngleLexer
