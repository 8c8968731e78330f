import AngleLexer.Literal.Number
import AngleLexer.Reader.Basic
import AngleLexer.Report.Json

/-!
# A source as a stream of values

For programs that read one JSON value after the other: all pieces of a source in order, trivia and
the end of the input included, each number followed by its value, and at last the comments.
-/

namespace AngleLexer

/-- The value of a token, if it is a number that has one. -/
def Token.number? (t : Token) : Option Number :=
  if t.kind = .number then (NumberLiteral.value t.text).toOption else none

/-- A piece, and the value of the number that it may be. -/
def Piece.toStream (p : Piece) : List Json :=
  p.toJson :: ((p.token?.bind Token.number?).map Number.toJson).toList

/-- All values of the stream of a source. -/
def Text.toStream (source : Text) : List Json :=
  let onward := (Reader.ofText source).pieces
  (onward.1 ++ [Piece.token onward.2.endToken]).flatMap Piece.toStream ++
    onward.2.comments.map Comment.toJson

end AngleLexer
