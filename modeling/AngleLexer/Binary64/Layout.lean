import AngleLexer.Binary64.Shortest
import AngleLexer.Text.Basic

/-!
# Writing binary64 numbers

A number is written with the digits of its shortest decimal, plainly or with an exponent. Formats
differ in where plain writing ends, in the sign of the exponent, in what they put for infinity and
in how they break ties. A `Layout` collects these decisions; `Layout.render` does the rest.

Plain writing always shows a point with a digit on either side. With an exponent there is one
digit before the point, and no point without a digit behind it.
-/

namespace AngleLexer

/-- The decisions of an output format for numbers. -/
structure Layout where
  /-- the least exponent of ten that is still written plainly -/
  leastPlain : Int
  /-- the least exponent of ten above it that is not written plainly any more -/
  plainEnd : Int
  /-- what stands in front of an exponent that is not negative -/
  positiveMark : Text
  /-- which of two equally near decimals is written -/
  tie : Tie
  /-- what stands for infinity -/
  infinity : Text
  /-- whether infinity is written with its sign -/
  signedInfinity : Bool

namespace Layout

/-- Digits with a point: `point` of the digits stand before it. Zeros fill the gap where the digits
do not reach the point. -/
def plain (digits : Text) (point : Int) : Text :=
  if point ≤ 0 then "0.".toList ++ List.replicate (-point).toNat '0' ++ digits
  else
    let whole := digits.take point.toNat
    let rest := digits.drop point.toNat
    whole ++ List.replicate (point.toNat - whole.length) '0' ++
      '.' :: (if rest.isEmpty then ['0'] else rest)

/-- Digits with one of them before the point, and an exponent. -/
def scientific (l : Layout) (digits : Text) (exponent : Int) : Text :=
  let rest := digits.drop 1
  digits.take 1 ++ (if rest.isEmpty then [] else '.' :: rest) ++
    'e' :: (if exponent < 0 then [] else l.positiveMark) ++ Text.ofInt exponent

/-- The digits of a number without the zeros at their end. -/
def significantDigits (n : Nat) : Text :=
  ((Nat.toDigits 10 n).reverse.dropWhile (· == '0')).reverse

/-- The text of a decimal that is not zero. -/
def decimal (l : Layout) (x : Decimal) : Text :=
  let first := x.exponent + (Nat.toDigits 10 x.significand).length - 1
  let digits := significantDigits x.significand
  if l.leastPlain ≤ first ∧ first < l.plainEnd then plain digits (first + 1)
  else l.scientific digits first

/-- The text of a value. -/
def render (l : Layout) (x : Binary64) : Text :=
  let sign : Text := if x.negative then ['-'] else []
  if x.isInfinite then (if l.signedInfinity then sign else []) ++ l.infinity
  else if x.magnitude = 0 then sign ++ "0.0".toList
  else sign ++ l.decimal (x.shortest l.tie)

end Layout

end AngleLexer
