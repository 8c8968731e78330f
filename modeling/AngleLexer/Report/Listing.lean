import AngleLexer.Literal.Number
import AngleLexer.Literal.String
import AngleLexer.Binary64.Layout
import AngleLexer.Scanner.Basic
import AngleLexer.Report.Json
import AngleLexer.Text.Quoted

/-!
# The listing of a source

What a scan of a source yields, for people to read or for programs. For people it is a list of
lines: one for each token, with the value of string and number literals, and if wanted one for each
comment and one for each kind of token that occurs, with the number of its occurrences. Texts are
quoted, so no token breaks its line. For programs the same is one JSON value.
-/

namespace AngleLexer

/-- What a listing shows besides the tokens. -/
structure ListingOptions where
  /-- the comments of the source -/
  comments : Bool
  /-- how often each kind of token occurs -/
  summary : Bool
deriving DecidableEq

namespace Listing

/-! ## Values of literals -/

/-- Floating-point numbers are written plainly from a ten thousandth to ten quadrillions; only
negative exponents have a sign, a tie goes up, and infinity is `inf`. -/
def numberLayout : Layout where
  leastPlain := -4
  plainEnd := 16
  positiveMark := []
  tie := .up
  infinity := "inf".toList
  signedInfinity := true

/-- A number with the name of what it is. -/
def number : Number → Text
  | .integer n => "Integer(".toList ++ Text.ofInt n ++ [')']
  | .float x => "Float(".toList ++ numberLayout.render x ++ [')']

/-- The text of a value, or the reason in angle brackets why there is none. -/
def outcome : Except LiteralFault Text → Text
  | .ok t => t
  | .error e => '<' :: e.message ++ ['>']

/-- The value of a token, if it is a literal that has one. -/
def value? (t : Token) : Option Text :=
  match t.kind with
  | .stringLiteral => some (outcome ((StringLiteral.value t.text).map Text.quoted))
  | .number => some (outcome ((NumberLiteral.value t.text).map number))
  | _ => none

/-! ## Lines -/

/-- A position with its parts aligned on the colon. -/
def place (p : Position) : Text :=
  (Text.ofNat p.line).leftpad 4 ' ' ++ ':' :: (Text.ofNat p.column).rightpad 4 ' '

/-- The name of a kind, as a column of the listing. -/
def kindColumn (k : Kind) : Text :=
  k.name.toList.rightpad 20 ' '

/-- The line of a token. -/
def tokenLine (t : Token) : Text :=
  place t.span.first ++ ' ' :: kindColumn t.kind ++ ' ' :: Text.quoted t.text ++
    match value? t with
    | none => []
    | some v => " = ".toList ++ v

/-- The line of a comment. -/
def commentLine (c : Comment) : Text :=
  place c.position ++ ' ' :: Text.quoted c.text

/-- The line of a kind and the number of its tokens. -/
def summaryLine (entry : Kind × Nat) : Text :=
  kindColumn entry.1 ++ ' ' :: Text.ofNat entry.2

/-- A heading. -/
def heading (title : String) : Text :=
  "=== ".toList ++ title.toList ++ " ===".toList

/-! ## Whole listings -/

/-- The kinds that occur, in the order of their first occurrence, with their numbers. -/
def summary (tokens : List Token) : List (Kind × Nat) :=
  let ks := tokens.map Token.kind
  ks.eraseDups.map fun k => (k, ks.count k)

/-- The lines of the listing of a source. -/
def lines (options : ListingOptions) (source : Text) : List Text :=
  let (tokens, last) := (Scanner.ofText source).tokens
  heading "Tokens" :: tokens.map tokenLine ++
    (if options.comments then heading "Comments" :: last.comments.map commentLine else []) ++
    (if options.summary then heading "Summary" :: (summary tokens).map summaryLine else [])

/-- The listing of a source for people. -/
def text (options : ListingOptions) (source : Text) : Text :=
  (lines options source).flatMap (· ++ ['\n'])

/-- The listing of a source for programs. -/
def json (options : ListingOptions) (source : Text) : Json :=
  let (tokens, last) := (Scanner.ofText source).tokens
  .record <|
    [("tokens", .arr (tokens.map Token.toJson))] ++
    (if options.comments then [("comments", .arr (last.comments.map Comment.toJson))] else []) ++
    (if options.summary then
      [("summary", .obj ((summary tokens).map fun e => (e.1.name.toList, .int e.2)))]
     else [])

end Listing

end AngleLexer
