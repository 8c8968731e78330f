import AngleLexer.Scanner.Basic

/-!
# The current token in context

A message to the user shows where the scanner stands: one line with some text before the current
token and some text from it on, and below it a caret under the first character of the token. White
space is collapsed, so the context stays on one line, and what is longer than `shownWidth` is
cut at the end that is farther from the token.
-/

namespace AngleLexer.Scanner

/-- How many characters are shown on either side. -/
def shownWidth : Nat := 20

/-- What stands for text that is cut off. -/
def cutMark : Text := "...".toList

/-- The source before the current token. -/
def before (s : Scanner) : Text :=
  (s.reader.behind.drop s.text.length).reverse

/-- The source from the current token on. -/
def onward (s : Scanner) : Text :=
  s.text ++ s.reader.ahead

/-- The end of a text, marked where something was cut off in front of it. -/
def keepEnd (t : Text) : Text :=
  if shownWidth < t.length then cutMark ++ t.drop (t.length - shownWidth) else t

/-- The beginning of a text, marked where something was cut off behind it. -/
def keepStart (t : Text) : Text :=
  if shownWidth < t.length then t.take shownWidth ++ cutMark else t

/-- The text before the current token, as a message shows it. -/
def leftContext (s : Scanner) : Text := keepEnd (Text.collapse s.before)

/-- The text from the current token on, as a message shows it. -/
def rightContext (s : Scanner) : Text := keepStart (Text.collapse s.onward)

/-- Two lines: the context of the current token, and a caret under its first character. -/
def pointer (s : Scanner) : Text :=
  s.leftContext ++ s.rightContext ++ '\n' :: List.replicate s.leftContext.length '-' ++ ['^']

end AngleLexer.Scanner
