import AngleLexer.Text.Radix

/-!
# How far a number reaches

A numeral is made of **runs**: digits of one radix, with single underscores allowed between two
digits. The functions here measure, in characters, how much of a text belongs to a number that
starts it; what the number denotes is a matter for `Number.ofText?`.

A mark, a point or an exponent is part of a number only if digits follow, so `1.` is a number and
a dot, and `0x` is a zero and a word. The longest reading wins in every case.
-/

namespace AngleLexer.Lexeme

/-- The length of what continues a run: digits, each with at most one underscore before it. -/
def runTail (isDigit : Char → Bool) : Text → Nat
  | '_' :: c :: rest => if isDigit c then runTail isDigit rest + 2 else 0
  | c :: rest => if isDigit c then runTail isDigit rest + 1 else 0
  | [] => 0

/-- The length of the run that a text starts with, or zero if it starts with no digit. -/
def run (isDigit : Char → Bool) : Text → Nat
  | c :: rest => if isDigit c then runTail isDigit rest + 1 else 0
  | [] => 0

/-- The length of a fraction: a point and a run. -/
def fraction : Text → Nat
  | '.' :: rest =>
    let digits := run isDecimalDigit rest
    if digits = 0 then 0 else digits + 1
  | _ => 0

/-- The length of the sign that a text may start with. -/
def sign : Text → Nat
  | '+' :: _ => 1
  | '-' :: _ => 1
  | _ => 0

/-- The length of an exponent: a letter `e`, perhaps a sign, and a run. -/
def exponent : Text → Nat
  | c :: rest =>
    if c = 'e' ∨ c = 'E' then
      let digits := run isDecimalDigit (rest.drop (sign rest))
      if digits = 0 then 0 else sign rest + digits + 1
    else 0
  | [] => 0

/-- The length of a number without a mark: a run, perhaps a fraction, perhaps an exponent. -/
def decimalNumber (t : Text) : Nat :=
  let whole := run isDecimalDigit t
  let mantissa := whole + fraction (t.drop whole)
  mantissa + exponent (t.drop mantissa)

/-- The length of a number with a mark, if the text starts with a zero, a mark and a run of the
marked radix. -/
def markedNumber? : Text → Option Nat
  | '0' :: mark :: rest =>
    (Radix.ofMark? mark).bind fun radix =>
      let digits := run radix.isDigit rest
      if digits = 0 then none else some (digits + 2)
  | _ => none

/-- The length of the number that a text starts with. -/
def number (t : Text) : Nat :=
  (markedNumber? t).getD (decimalNumber t)

/-- A run of at least one digit is not empty. -/
theorem run_pos {isDigit : Char → Bool} {c : Char} {rest : Text} (h : isDigit c = true) :
    0 < run isDigit (c :: rest) := by
  simp [run, h]

/-- Whatever starts with a decimal digit starts with a number. -/
theorem number_pos {c : Char} {rest : Text} (h : isDecimalDigit c = true) :
    0 < number (c :: rest) := by
  have hrun : 0 < run isDecimalDigit (c :: rest) := run_pos h
  unfold number
  cases hm : markedNumber? (c :: rest) with
  | none =>
    simp only [Option.getD_none, decimalNumber]
    omega
  | some n =>
    simp only [Option.getD_some]
    unfold markedNumber? at hm
    split at hm
    · obtain ⟨radix, -, hn⟩ := Option.bind_eq_some_iff.1 hm
      simp only at hn
      split at hn
      · cases hn
      · cases hn
        omega
    · cases hm

end AngleLexer.Lexeme
