import AngleLexer.Text.Basic

/-!
# Symbols

The punctuation and the operators of the language. Each symbol has one spelling, of one to three
characters, and no two share theirs. Where several of them fit, the longest one is read:
`Symbol.all` lists longer spellings before shorter ones, so the first that fits is the longest
(`Symbol.atStart?`).
-/

namespace AngleLexer

/-- The symbols of the language. -/
inductive Symbol where
  | leftParen | rightParen | leftBrace | rightBrace | leftBracket | rightBracket
  | semicolon | comma | dot | hash | ampersand | pipe | colon
  | assign | plusAssign | minusAssign | starAssign | slashAssign | percentAssign | starStarAssign
  | andAnd | orOr | eqEq | notEq | lt | gt | ltEq | gtEq | approxEq | notApproxEq
  | rangeExclusive | rangeInclusiveEnd | rangeInclusiveStart | rangeInclusive
  | plus | minus | star | slash | percent | starStar
  | question | bang | bangLt | atSign
deriving DecidableEq

namespace Symbol

/-- All symbols, those with longer spellings first. -/
def all : List Symbol :=
  [starStarAssign, notApproxEq, rangeExclusive, rangeInclusiveEnd, rangeInclusiveStart,
   rangeInclusive,
   plusAssign, minusAssign, starAssign, slashAssign, percentAssign, andAnd, orOr, eqEq, notEq,
   ltEq, gtEq, approxEq, starStar, bangLt,
   leftParen, rightParen, leftBrace, rightBrace, leftBracket, rightBracket, semicolon, comma, dot,
   hash, ampersand, pipe, colon, assign, lt, gt, plus, minus, star, slash, percent, question,
   bang, atSign]

/-- How a symbol is written. -/
def spelling : Symbol → String
  | leftParen => "("
  | rightParen => ")"
  | leftBrace => "\x7b"
  | rightBrace => "\x7d"
  | leftBracket => "["
  | rightBracket => "]"
  | semicolon => ";"
  | comma => ","
  | dot => "."
  | hash => "#"
  | ampersand => "&"
  | pipe => "|"
  | colon => ":"
  | assign => "="
  | plusAssign => "+="
  | minusAssign => "-="
  | starAssign => "*="
  | slashAssign => "/="
  | percentAssign => "%="
  | starStarAssign => "**="
  | andAnd => "&&"
  | orOr => "||"
  | eqEq => "=="
  | notEq => "!="
  | lt => "<"
  | gt => ">"
  | ltEq => "<="
  | gtEq => ">="
  | approxEq => "~="
  | notApproxEq => "!~="
  | rangeExclusive => "..."
  | rangeInclusiveEnd => "..="
  | rangeInclusiveStart => "=.."
  | rangeInclusive => "=.="
  | plus => "+"
  | minus => "-"
  | star => "*"
  | slash => "/"
  | percent => "%"
  | starStar => "**"
  | question => "?"
  | bang => "!"
  | bangLt => "!<"
  | atSign => "@"

/-- The name under which listings show a symbol. -/
def name : Symbol → String
  | leftParen => "LeftParen"
  | rightParen => "RightParen"
  | leftBrace => "LeftBrace"
  | rightBrace => "RightBrace"
  | leftBracket => "LeftBracket"
  | rightBracket => "RightBracket"
  | semicolon => "Semicolon"
  | comma => "Comma"
  | dot => "Dot"
  | hash => "Hash"
  | ampersand => "Ampersand"
  | pipe => "Pipe"
  | colon => "Colon"
  | assign => "Assign"
  | plusAssign => "PlusAssign"
  | minusAssign => "MinusAssign"
  | starAssign => "StarAssign"
  | slashAssign => "SlashAssign"
  | percentAssign => "PercentAssign"
  | starStarAssign => "StarStarAssign"
  | andAnd => "AndAnd"
  | orOr => "OrOr"
  | eqEq => "EqEq"
  | notEq => "NotEq"
  | lt => "Lt"
  | gt => "Gt"
  | ltEq => "LtEq"
  | gtEq => "GtEq"
  | approxEq => "ApproxEq"
  | notApproxEq => "NotApproxEq"
  | rangeExclusive => "RangeExclusive"
  | rangeInclusiveEnd => "RangeInclusiveEnd"
  | rangeInclusiveStart => "RangeInclusiveStart"
  | rangeInclusive => "RangeInclusive"
  | plus => "Plus"
  | minus => "Minus"
  | star => "Star"
  | slash => "Slash"
  | percent => "Percent"
  | starStar => "StarStar"
  | question => "Question"
  | bang => "Bang"
  | bangLt => "BangLt"
  | atSign => "At"

/-- The spelling as a text. -/
def text (s : Symbol) : Text :=
  s.spelling.toList

/-- The longest symbol that a text starts with. -/
def atStart? (t : Text) : Option Symbol :=
  all.find? fun s => s.text.isPrefixOf t

/-- Every symbol is listed. -/
theorem mem_all (s : Symbol) : s ∈ all := by
  cases s <;> decide

/-- No spelling is empty, so reading a symbol always makes progress. -/
theorem text_ne_nil (s : Symbol) : s.text ≠ [] := by
  cases s <;> decide

/-- The list goes from longer spellings to shorter ones. -/
theorem all_pairwise_length : all.Pairwise fun s r => r.text.length ≤ s.text.length := by
  decide

/-- No symbol that a text starts with is longer than the one that is read there. -/
theorem length_le_of_atStart? {t : Text} {s r : Symbol} (h : atStart? t = some s)
    (hr : r.text <+: t) : r.text.length ≤ s.text.length := by
  obtain ⟨-, earlier, later, hall, hearlier⟩ := List.find?_eq_some_iff_append.1 h
  have hmem : r ∈ earlier ++ s :: later := hall ▸ mem_all r
  have hsorted : (earlier ++ s :: later).Pairwise fun s r => r.text.length ≤ s.text.length :=
    hall ▸ all_pairwise_length
  rcases List.mem_append.1 hmem with hm | hm
  · have hskip := hearlier r hm
    rw [List.isPrefixOf_iff_prefix.2 hr] at hskip
    cases hskip
  · rcases List.mem_cons.1 hm with rfl | hm
    · exact Nat.le_refl _
    · exact (List.pairwise_cons.1 (List.pairwise_append.1 hsorted).2.1).1 r hm

end Symbol

end AngleLexer
