import AngleLexer.Binary64.Rounding
import AngleLexer.Literal.Fault
import AngleLexer.Text.Radix

/-!
# The value of a numeric literal

Underscores in a numeral mean nothing and are dropped first. What is left decides the form.

* After `0x`, `0o` or `0b` stands an integer in that radix.
* Otherwise a point or a letter `e` makes it a floating-point number, which is rounded to binary64.
* Anything else is an integer in base ten.

Integers have 128 bits, one of them for the sign; one that does not fit has no value. A sign may
stand in front of the digits, also of those after a mark. Numbers read from a source never carry
one, but `Number.ofText?` answers for every text.
-/

namespace AngleLexer

/-- The value of a numeric literal. -/
inductive Number where
  /-- an integer -/
  | integer (value : Int)
  /-- a number that was rounded to binary64 -/
  | float (value : Binary64)
deriving DecidableEq

/-! ## Floating-point numerals -/

namespace Decimal

/-- The decimal with digits before and after a point, times a power of ten. There must be at least
one digit, and no other characters. -/
def ofDigits? (whole fraction : Text) (exponent : Int) : Option Decimal :=
  (Radix.decimal.natOf? (whole ++ fraction)).map fun n => ⟨n, exponent - fraction.length⟩

/-- The decimal that a text without a sign denotes: digits with at most one point, and perhaps a
letter `e` and an integer. -/
def ofText? (t : Text) : Option Decimal :=
  let mantissa := t.takeWhile fun c => c != 'e' && c != 'E'
  let whole := mantissa.takeWhile (· != '.')
  let fraction := (mantissa.drop whole.length).drop 1
  match t.drop mantissa.length with
  | [] => ofDigits? whole fraction 0
  | _ :: power => (Radix.decimal.intOf? power).bind (ofDigits? whole fraction)

end Decimal

/-- The binary64 number nearest to the decimal that a text with an optional sign denotes. -/
def Binary64.ofText? : Text → Option Binary64
  | '-' :: t => (Decimal.ofText? t).map (Decimal.toBinary64 true)
  | '+' :: t => (Decimal.ofText? t).map (Decimal.toBinary64 false)
  | t => (Decimal.ofText? t).map (Decimal.toBinary64 false)

/-! ## Numerals -/

namespace Number

/-- Whether an integer has 128 bits. -/
def fits (n : Int) : Bool := -Int.pow 2 127 ≤ n && n < Int.pow 2 127

/-- The integer that a text denotes in a radix, if it fits. -/
def integer? (r : Radix) (t : Text) : Option Number :=
  ((r.intOf? t).filter fits).map integer

/-- The radix that a numeral announces, and what follows the mark. -/
def marked? : Text → Option (Radix × Text)
  | '0' :: mark :: digits => (Radix.ofMark? mark).map fun r => (r, digits)
  | _ => none

/-- Whether a numeral without a mark is one of a floating-point number. -/
def isFloatForm (t : Text) : Bool :=
  t.any fun c => c == '.' || c == 'e' || c == 'E'

/-- The number that a text denotes, if it denotes one. -/
def ofText? (t : Text) : Option Number :=
  let digits := t.filter (· != '_')
  match marked? digits with
  | some (r, digits) => integer? r digits
  | none =>
    if isFloatForm digits then (Binary64.ofText? digits).map float
    else integer? .decimal digits

end Number

/-- The value of a numeric literal. -/
def NumberLiteral.value (t : Text) : Except LiteralFault Number :=
  match Number.ofText? t with
  | some n => .ok n
  | none => .error (.badNumber t)

end AngleLexer
