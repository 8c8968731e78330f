import AngleLexer.Reader.Basic
import AngleLexer.Text.Quoted

/-!
# Faults

Reading never fails: what no rule accepts becomes an invalid token. A `Fault` gives such a token a
cause, which can be told from the way its text begins, because only a string literal begins with
a quote and only a block comment with its opening mark.
-/

namespace AngleLexer

/-- Why a stretch of source is invalid. -/
inductive Cause where
  /-- a string literal that is not closed as it should be -/
  | openString
  /-- a block comment without an end mark -/
  | openComment
  /-- a character that nothing starts with -/
  | unknownCharacter
deriving DecidableEq

/-- An invalid stretch of source and its cause. -/
structure Fault where
  /-- why it is invalid -/
  cause : Cause
  /-- how it is written in the source -/
  text : Text
  /-- where it stands -/
  span : Span
deriving DecidableEq

/-- The cause that an invalid text betrays by its first characters. -/
def Cause.ofText : Text → Cause
  | '"' :: _ => openString
  | '/' :: '*' :: _ => openComment
  | _ => unknownCharacter

/-- The fault that a token is, if it is invalid. -/
def Token.fault? (t : Token) : Option Fault :=
  if t.isInvalid then some ⟨.ofText t.text, t.text, t.span⟩ else none

/-- The faults of a source, in order. -/
def Text.faults (source : Text) : List Fault :=
  source.tokens.filterMap Token.fault?

namespace Fault

/-- The character at which a fault begins; a fault without text counts as a null character. -/
def culprit (f : Fault) : Char := f.text.headD '\x00'

/-- What a message to the user says about a fault. -/
def message (f : Fault) : Text :=
  match f.cause with
  | .openString => "未終了の文字列リテラル".toList
  | .openComment => "未終了のブロックコメント".toList
  | .unknownCharacter => "認識できない文字: ".toList ++ Text.quotedChar f.culprit

end Fault

end AngleLexer
