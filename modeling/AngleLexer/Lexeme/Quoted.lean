import AngleLexer.Escape

/-!
# How far a quoted form reaches

Three forms stand between quotes: names between backticks, literals between apostrophes and string
literals. The first two end on their own line or not at all. A string literal is scanned with more
care, because a broken one must not swallow the rest of the program.

Inside a string literal a brace opens a **group**, and quotes inside a group are text. So the scan
keeps the depth of braces, and only a quote at depth zero closes the literal. The scan stops early
before a line break, after a character that spoils an escape sequence, and at the end of the
input; `StringEnd` says which of the four happened.
-/

namespace AngleLexer.Lexeme

/-- The characters that neither a name between backticks nor a literal between apostrophes may
hold. -/
def isLineEnd (c : Char) : Bool := c == '\r' || c == '\n'

theorem isLineEnd_iff {c : Char} : isLineEnd c = true ↔ c = '\r' ∨ c = '\n' := by
  rw [isLineEnd, Bool.or_eq_true, beq_iff_eq, beq_iff_eq]

/-- The length of what follows an opening backtick, through the closing one: at least one
character, none of them a backtick or a line end. -/
def escapedNameTail? (t : Text) : Option Nat :=
  let name := t.takeWhile fun c => c != '\x60' && !isLineEnd c
  if name.isEmpty then none
  else if (t.drop name.length).head? = some '\x60' then some (name.length + 1)
  else none

/-- The length of what follows an opening apostrophe, through the closing one. A backslash
protects the character after it, which may be an apostrophe but not a line end. -/
def charTail? : Text → Option Nat
  | [] => none
  | '\'' :: _ => some 1
  | '\\' :: c :: rest => if isLineEnd c then none else (charTail? rest).map (· + 2)
  | c :: rest => if c = '\\' ∨ isLineEnd c = true then none else (charTail? rest).map (· + 1)

/-! ## String literals -/

/-- What ends the scan of a string literal. -/
inductive StringEnd where
  /-- the closing quote, which is part of the literal -/
  | closed
  /-- a line break, which is left for what follows -/
  | lineBreak
  /-- an escape sequence that is none; the character that spoils it is taken along -/
  | badEscape
  /-- the input is over -/
  | inputOver
deriving DecidableEq

/-- The end of a scan and the number of characters scanned. -/
structure StringScan where
  /-- what ended the scan -/
  finish : StringEnd
  /-- how many characters were taken -/
  width : Nat
deriving DecidableEq

/-- The scan that takes `n` more characters in front. -/
def StringScan.widen (n : Nat) (s : StringScan) : StringScan :=
  { s with width := s.width + n }

/-- Scan the inside of a string literal that stands at the given depth of braces. The depth may
fall below zero, and a quote closes the literal only where it is back at zero. -/
def stringTail (depth : Int) : Text → StringScan
  | [] => ⟨.inputOver, 0⟩
  | c :: rest =>
    if c = '\\' then
      let escape := Escape.read rest
      match escape with
      | .simple _ | .codePoint _ =>
        (stringTail depth (rest.drop escape.width)).widen (escape.width + 1)
      | .shortCodePoint _ =>
        ⟨if escape.width < rest.length then .badEscape else .inputOver,
          min (escape.width + 1) rest.length + 1⟩
      | .unknown _ => ⟨.badEscape, escape.width + 1⟩
      | .missing => ⟨.inputOver, 1⟩
    else if isLineBreak c then ⟨.lineBreak, 0⟩
    else if c = '\x7b' then (stringTail (depth + 1) rest).widen 1
    else if c = '\x7d' then (stringTail (depth - 1) rest).widen 1
    else if c = '"' ∧ depth = 0 then ⟨.closed, 1⟩
    else (stringTail depth rest).widen 1
termination_by t => t.length
decreasing_by
  · simp only [List.length_drop, List.length_cons]; omega
  all_goals exact Nat.lt_succ_self _

/-- Scan a string literal from its opening quote, which `rest` follows. -/
def stringLiteral (rest : Text) : StringScan :=
  (stringTail 0 rest).widen 1

end AngleLexer.Lexeme
