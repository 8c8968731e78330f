import AngleLexer.Vocabulary.Keyword
import AngleLexer.Vocabulary.Symbol

/-!
# Kinds of token

A kind says what a token is, without its text. Keywords and symbols have a fixed spelling; the
words, numbers and quoted forms do not, and neither do the two **sentinels**, which no rule of the
language produces: the end of the input, and an invalid stretch that no rule accepts.

The kind `genericLt` is an `<` that opens the type arguments of a call. Its spelling is that of the
comparison, and which of the two an `<` is cannot be seen where it stands: `Scanner` decides it.
-/

namespace AngleLexer

/-- The kinds of token. -/
inductive Kind where
  /-- a word of the vocabulary -/
  | keyword (word : Keyword)
  /-- punctuation or an operator -/
  | symbol (symbol : Symbol)
  /-- any other word -/
  | identifier
  /-- a name between backticks -/
  | escapedIdentifier
  /-- a numeric literal -/
  | number
  /-- a literal between apostrophes -/
  | charLiteral
  /-- a complete string literal -/
  | stringLiteral
  /-- the end of the input -/
  | endOfInput
  /-- a stretch of input that no rule accepts -/
  | invalid
  /-- an `<` that opens type arguments -/
  | genericLt
deriving DecidableEq

namespace Kind

/-- The name under which listings show a kind. -/
def name : Kind → String
  | keyword word => word.name
  | symbol s => s.name
  | identifier => "Identifier"
  | escapedIdentifier => "EscapedIdentifier"
  | number => "Number"
  | charLiteral => "CharLiteral"
  | stringLiteral => "StringLiteral"
  | endOfInput => "EndOfInput"
  | invalid => "Invalid"
  | genericLt => "GenericLt"

/-- All kinds. -/
def all : List Kind :=
  Keyword.all.map keyword ++ Symbol.all.map symbol ++
    [identifier, escapedIdentifier, number, charLiteral, stringLiteral, endOfInput, invalid,
     genericLt]

/-- The kind of a given name. -/
def ofName? (name : String) : Option Kind :=
  all.find? fun k => k.name == name

/-- The spelling of a kind that has only one. -/
def spelling? : Kind → Option String
  | keyword word => some word.spelling
  | symbol s => some s.spelling
  | genericLt => some Symbol.lt.spelling
  | _ => none

/-- How a message to the user refers to a kind. -/
def describe : Kind → String
  | keyword word => s!"'{word.spelling}'"
  | symbol s => s!"'{s.spelling}'"
  | identifier => "identifier"
  | escapedIdentifier => "escaped identifier"
  | number => "number"
  | charLiteral => "character literal"
  | stringLiteral => "string literal"
  | endOfInput => "end of input"
  | invalid => "invalid token"
  | genericLt => s!"'{Symbol.lt.spelling}' (type arguments)"

/-- A keyword that is reserved everywhere. -/
def isReserved : Kind → Bool
  | keyword word => !word.isContextual
  | _ => false

/-- A keyword only in certain places of the grammar. -/
def isContextual : Kind → Bool
  | keyword word => word.isContextual
  | _ => false

/-- A token whose text the kind leaves open. -/
def isLiteral : Kind → Bool
  | identifier | escapedIdentifier | number | charLiteral | stringLiteral => true
  | _ => false

/-- A kind that no rule of the language produces. -/
def isSentinel : Kind → Bool
  | endOfInput | invalid => true
  | _ => false

end Kind

end AngleLexer
