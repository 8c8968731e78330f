import AngleLexer.Text.Radix

/-!
# Escape sequences

What may follow a backslash in a string literal. The scanner, which has to find where a literal
ends, and the decoder, which has to say what it denotes, both go through `Escape.read`: the two
cannot disagree about how far an escape sequence reaches.

A code point is written `u` and four or five digits of base sixteen. Five are taken whenever five
are there, so a digit right after four digits belongs to the sequence.
-/

namespace AngleLexer

/-- What stands after a backslash. -/
inductive Escape where
  /-- a single character that stands for `denoted` -/
  | simple (denoted : Char)
  /-- a code point with enough digits -/
  | codePoint (digits : Text)
  /-- a code point with too few digits -/
  | shortCodePoint (digits : Text)
  /-- a character that no escape sequence starts with -/
  | unknown (c : Char)
  /-- nothing at all: the text ends with the backslash -/
  | missing
deriving DecidableEq

namespace Escape

/-- What the escape sequence of a single character stands for. -/
def simple? (c : Char) : Option Char :=
  if c = '\\' ∨ c = '"' ∨ c = '\x7b' ∨ c = '\x7d' then some c
  else if c = 'n' then some '\n'
  else if c = 'r' then some '\r'
  else if c = 'v' then some '\x0b'
  else if c = 'f' then some '\x0c'
  else if c = 't' then some '\t'
  else none

/-- The most digits a code point takes. -/
def maxDigits : Nat := 5

/-- The fewest digits a code point takes. -/
def minDigits : Nat := 4

/-- The escape sequence at the start of a text, which is the text after a backslash. -/
def read : Text → Escape
  | [] => missing
  | c :: rest =>
    if c = 'u' then
      let digits := (rest.take maxDigits).takeWhile isHexDigit
      if digits.length < minDigits then shortCodePoint digits else codePoint digits
    else
      match simple? c with
      | some denoted => simple denoted
      | none => unknown c

/-- How many characters a sequence takes after its backslash. -/
def width : Escape → Nat
  | simple _ => 1
  | codePoint digits => digits.length + 1
  | shortCodePoint digits => digits.length + 1
  | unknown _ => 1
  | missing => 0

/-- A sequence does not reach beyond the text it is read from. -/
theorem width_read_le (t : Text) : (read t).width ≤ t.length := by
  cases t with
  | nil => exact Nat.le_refl _
  | cons c rest =>
    have hdigits : ((rest.take maxDigits).takeWhile isHexDigit).length ≤ rest.length :=
      Nat.le_trans (List.takeWhile_sublist _).length_le (List.take_sublist _ _).length_le
    simp only [read]
    split
    · split <;> simpa [width] using hdigits
    · split <;> simp [width]

end Escape

end AngleLexer
