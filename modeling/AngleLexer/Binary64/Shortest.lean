import AngleLexer.Binary64.Rounding

/-!
# The shortest decimal of a binary64 number

To write a value it is enough to give a decimal that reads back as it. All reals of an interval
around the value do; the interval ends half way to the neighbours, and the ends belong to it when
the significand is even, because ties are rounded to even. Among the decimals in the interval the
shortest are wanted, and among those the one nearest to the value.

The search goes through the grids `10 ^ p`, from the one on which the value has a single digit to
finer ones. On each grid only the two neighbours of the value can be nearest, so only they are
tried, and the first grid on which one of them lies in the interval gives the answer. On the grid
of the seventeenth digit the nearest neighbour always does.

Two nearest decimals may be equally near. Which of them is taken is a decision of the output
format (`Tie`).
-/

namespace AngleLexer

/-- Which of two equally near decimals is taken. -/
inductive Tie where
  /-- the larger one -/
  | up
  /-- the one whose last digit is even -/
  | even
deriving DecidableEq

namespace Binary64

/-- The interval of the reals that round to a value: `lower`, the value and `upper`, all three as
multiples of `1 / unit`. -/
structure Interval where
  /-- the lower end -/
  lower : Nat
  /-- the value itself -/
  value : Nat
  /-- the upper end -/
  upper : Nat
  /-- the denominator of all three -/
  unit : Nat
  /-- whether the ends round to the value as well -/
  closed : Bool
deriving DecidableEq

/-- The interval of a finite value. Below a power of two the next value is only half as far away
as above it, so there the lower end is nearer; a quarter of the spacing measures all ends. -/
def interval (x : Binary64) : Interval :=
  let scale := Nat.pow 2 (x.exponent - 2).toNat
  let step := if x.fraction = 0 ∧ 1 < x.exponentField then 1 else 2
  { lower := (4 * x.significand - step) * scale
    value := 4 * x.significand * scale
    upper := (4 * x.significand + 2) * scale
    unit := Nat.pow 2 (2 - x.exponent).toNat
    closed := x.significand % 2 == 0 }

namespace Interval

/-- The multiples of `10 ^ p` that enclose the value, as a quotient: dividing gives the lower one. -/
def onGrid (i : Interval) (p : Int) : Nat × Nat :=
  (i.value * Nat.pow 10 (-p).toNat, i.unit * Nat.pow 10 p.toNat)

/-- Whether `d * 10 ^ p` lies in the interval. -/
def contains (i : Interval) (p : Int) (d : Nat) : Bool :=
  let scale := Nat.pow 10 (-p).toNat
  let point := d * (i.unit * Nat.pow 10 p.toNat)
  if i.closed then i.lower * scale ≤ point && point ≤ i.upper * scale
  else i.lower * scale < point && point < i.upper * scale

/-- The multiple of `10 ^ p` that is nearest to the value. -/
def nearest (i : Interval) (tie : Tie) (p : Int) : Nat :=
  let (n, d) := i.onGrid p
  let below := n / d
  match compare (2 * (n % d)) d with
  | .lt => below
  | .gt => below + 1
  | .eq =>
    match tie with
    | .up => below + 1
    | .even => below + below % 2

/-- The multiple of `10 ^ p` that lies in the interval, if there is one, and of two the nearer. -/
def decimal? (i : Interval) (tie : Tie) (p : Int) : Option Nat :=
  let (n, d) := i.onGrid p
  let below := n / d
  match i.contains p below, i.contains p (below + 1) with
  | false, false => none
  | true, false => some below
  | false, true => some (below + 1)
  | true, true => some (i.nearest tie p)

/-- The first answer on the grids from `10 ^ p` on, of which `n` may fail. -/
def search (i : Interval) (tie : Tie) (p : Int) : Nat → Decimal
  | 0 => ⟨i.nearest tie p, p⟩
  | n + 1 =>
    match i.decimal? tie p with
    | some d => ⟨d, p⟩
    | none => i.search tie (p - 1) n

end Interval

/-- How many digits always suffice. -/
def maxDigits : Nat := 17

/-- The number of decimal places within which every positive value has a digit. -/
def places : Nat := 400

/-- The exponent of ten of the first digit of a positive value: its number of digits before the
point, less one. Scaling by a large power of ten leaves an integer whose digits can be counted. -/
def firstDigit (x : Binary64) : Int :=
  let (n, d) := x.interval.onGrid (-(places : Int))
  ((Nat.toDigits 10 (n / d)).length : Int) - places - 1

/-- The shortest decimal that reads back as the absolute value of a finite value that is not
zero. -/
def shortest (tie : Tie) (x : Binary64) : Decimal :=
  x.interval.search tie x.firstDigit (maxDigits - 1)

end Binary64

end AngleLexer
