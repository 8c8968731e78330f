import AngleLexer.Text.Basic

/-!
# Digits and their radix

Numerals are written in one of four radices. A radix knows its digits (`Radix.digit?`) and reads
a whole text as a numeral (`Radix.natOf?`); it also has the mark that follows the leading zero of
a numeral in it (`Radix.ofMark?`). Only ASCII characters are digits.
-/

namespace AngleLexer

/-- The radices a numeral can be written in. -/
inductive Radix where
  /-- base two, after `0b` -/
  | binary
  /-- base eight, after `0o` -/
  | octal
  /-- base ten, with no mark -/
  | decimal
  /-- base sixteen, after `0x` -/
  | hexadecimal
deriving DecidableEq

namespace Radix

/-- The number of digits of a radix. -/
def base : Radix → Nat
  | binary => 2
  | octal => 8
  | decimal => 10
  | hexadecimal => 16

/-- The radix that a letter after a leading zero announces, in either case. -/
def ofMark? (c : Char) : Option Radix :=
  if c = 'x' ∨ c = 'X' then some hexadecimal
  else if c = 'o' ∨ c = 'O' then some octal
  else if c = 'b' ∨ c = 'B' then some binary
  else none

/-- The value of a character as a digit of base sixteen. -/
def hexDigit? (c : Char) : Option Nat :=
  if '0' ≤ c ∧ c ≤ '9' then some (c.toNat - 48)
  else if 'a' ≤ c ∧ c ≤ 'f' then some (c.toNat - 87)
  else if 'A' ≤ c ∧ c ≤ 'F' then some (c.toNat - 55)
  else none

/-- The value of a character as a digit of the radix. -/
def digit? (r : Radix) (c : Char) : Option Nat :=
  (hexDigit? c).filter (· < r.base)

/-- Whether a character is a digit of the radix. -/
def isDigit (r : Radix) (c : Char) : Bool :=
  (r.digit? c).isSome

/-- The number that a text denotes as a numeral of the radix. A numeral has at least one digit
and nothing but digits. -/
def natOf? (r : Radix) (t : Text) : Option Nat :=
  if t.isEmpty then none
  else t.foldlM (fun n c => (r.digit? c).map (n * r.base + ·)) 0

/-- The integer that a text denotes as a numeral with an optional sign. -/
def intOf? (r : Radix) : Text → Option Int
  | '-' :: digits => (r.natOf? digits).map fun n => -(n : Int)
  | '+' :: digits => (r.natOf? digits).map Int.ofNat
  | digits => (r.natOf? digits).map Int.ofNat

end Radix

/-- Whether a character is a decimal digit. -/
abbrev isDecimalDigit (c : Char) : Bool := Radix.decimal.isDigit c

/-- Whether a character is a digit of base sixteen. -/
abbrev isHexDigit (c : Char) : Bool := Radix.hexadecimal.isDigit c

end AngleLexer
