import AngleLexer.Json
import AngleLexer.Literal.Number
import AngleLexer.Token.Basic

/-!
# Tokens for programs

The JSON form of what a scan yields. Field names and their order are part of the format.
-/

namespace AngleLexer

/-- A position by its line and its column. -/
def Position.toJson (p : Position) : Json :=
  .record [("line", .int p.line), ("column", .int p.column)]

/-- A span by its two ends. -/
def Span.toJson (s : Span) : Json :=
  .record [("first", s.first.toJson), ("last", s.last.toJson)]

/-- A token by the name of its kind, its text and its span. -/
def Token.toJson (t : Token) : Json :=
  .record [("type", .str t.kind.name.toList), ("text", .str t.text), ("span", t.span.toJson)]

/-- Trivia by the name of its kind, its text and its span. -/
def Trivia.toJson (t : Trivia) : Json :=
  .record [("kind", .str t.kind.name.toList), ("text", .str t.text), ("span", t.span.toJson)]

/-- A piece is written as the token or the trivia that it is. -/
def Piece.toJson : Piece → Json
  | trivia t => t.toJson
  | token t => t.toJson

/-- A comment by its text and its place. -/
def Comment.toJson (c : Comment) : Json :=
  .record [("text", .str c.text), ("position", c.position.toJson)]

/-- A number by its kind and its value. -/
def Number.toJson : Number → Json
  | integer n => .record [("Integer", .int n)]
  | float x => .record [("Float", .float x)]

end AngleLexer
