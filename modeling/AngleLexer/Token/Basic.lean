import AngleLexer.Position
import AngleLexer.Token.Kind

/-!
# Tokens, trivia and pieces

Reading cuts a source into **pieces**. A piece is a token, which means something to a parser, or
trivia, which does not: white space and comments. Both carry their text and their span. Comments
are kept aside as well, because tools that format or document a program need them.
-/

namespace AngleLexer

/-- A token of the language. -/
structure Token where
  /-- what the token is -/
  kind : Kind
  /-- how it is written in the source -/
  text : Text
  /-- where it stands -/
  span : Span
deriving DecidableEq

namespace Token

/-- The token that marks the end of the input. -/
def isEnd (t : Token) : Bool := decide (t.kind = .endOfInput)

/-- A token made of input that no rule accepts. -/
def isInvalid (t : Token) : Bool := decide (t.kind = .invalid)

end Token

/-- What a piece of trivia is. -/
inductive TriviaKind where
  /-- a run of white space -/
  | whitespace
  /-- a comment that ends with its line -/
  | lineComment
  /-- a comment with its own end mark -/
  | blockComment
deriving DecidableEq

/-- The name under which listings show a kind of trivia. -/
def TriviaKind.name : TriviaKind → String
  | whitespace => "Whitespace"
  | lineComment => "LineComment"
  | blockComment => "BlockComment"

/-- A piece of the source that carries no meaning. -/
structure Trivia where
  /-- what it is -/
  kind : TriviaKind
  /-- how it is written in the source -/
  text : Text
  /-- where it stands -/
  span : Span
deriving DecidableEq

/-- A comment that was met while reading. -/
structure Comment where
  /-- the comment with its marks -/
  text : Text
  /-- where it begins -/
  position : Position
deriving DecidableEq

/-- The comment that a piece of trivia is, if it is not white space. -/
def Trivia.comment? (t : Trivia) : Option Comment :=
  match t.kind with
  | .whitespace => none
  | .lineComment | .blockComment => some ⟨t.text, t.span.first⟩

/-- A stretch that reading cuts off the source. -/
inductive Piece where
  /-- a stretch without meaning -/
  | trivia (trivia : Trivia)
  /-- a token -/
  | token (token : Token)
deriving DecidableEq

namespace Piece

/-- The text of a piece. -/
def text : Piece → Text
  | trivia t => t.text
  | token t => t.text

/-- The place of a piece. -/
def span : Piece → Span
  | trivia t => t.span
  | token t => t.span

/-- The token that a piece is, if it is one. -/
def token? : Piece → Option Token
  | trivia _ => none
  | token t => some t

/-- The comment that a piece is, if it is one. -/
def comment? : Piece → Option Comment
  | trivia t => t.comment?
  | token _ => none

end Piece

end AngleLexer
