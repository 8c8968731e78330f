import AngleLexer.Text.Basic
import AngleLexer.Text.Combining
import AngleLexer.Text.Ignorable

/-!
# Quoted text

A text that stands between quotes in a listing or a message, on one line and with every character
visible. The quote itself and the backslash get a backslash in front, the common control characters
have letters, and every other character that is not plainly visible is written by its number.
-/

namespace AngleLexer.Text

/-- Whether a character can be seen, and seen apart from its neighbours. -/
def isVisible (c : Char) : Bool :=
  isPrintable c && !isCombining c && !isIgnorable c

/-- How one character is shown between quotes. -/
def escaped (quote c : Char) : Text :=
  if c = '\x00' then "\\0".toList
  else if c = '\t' then "\\t".toList
  else if c = '\r' then "\\r".toList
  else if c = '\n' then "\\n".toList
  else if c = '\\' ∨ c = quote then ['\\', c]
  else if isVisible c then [c]
  else "\\u\x7b".toList ++ hexOfNat c.toNat ++ ['\x7d']

/-- A text between quotes. -/
def quoted (t : Text) : Text :=
  '"' :: t.flatMap (escaped '"') ++ ['"']

/-- A character between apostrophes. -/
def quotedChar (c : Char) : Text :=
  '\'' :: escaped '\'' c ++ ['\'']

end AngleLexer.Text
