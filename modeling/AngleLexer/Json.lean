import AngleLexer.Binary64.Layout

/-!
# JSON

The output format for programs. A `Json` value keeps the order of its fields, because readers of
the output see it. It has two written forms, `Json.compact` on one line and `Json.pretty` with two
blanks of indentation for each level; an empty list or object stays closed in both.
-/

namespace AngleLexer

/-- A JSON value. -/
inductive Json where
  /-- the null value -/
  | null
  /-- an integer -/
  | int (value : Int)
  /-- a number with a fraction or an exponent -/
  | float (value : Binary64)
  /-- a string -/
  | str (text : Text)
  /-- a list -/
  | arr (items : List Json)
  /-- an object, by its fields in order -/
  | obj (fields : List (Text × Json))

namespace Json

/-- A JSON object from fields with fixed names. -/
def record (fields : List (String × Json)) : Json :=
  .obj (fields.map fun f => (f.1.toList, f.2))

/-- Numbers are written plainly from a hundred thousandth to ten quadrillions; exponents always
have a sign, a tie goes to the even digit, and infinity is `null`. -/
def numberLayout : Layout where
  leastPlain := -5
  plainEnd := 16
  positiveMark := ['+']
  tie := .even
  infinity := "null".toList
  signedInfinity := false

/-- How one character is written inside a string. -/
def escapedChar (c : Char) : Text :=
  if c = '"' ∨ c = '\\' then ['\\', c]
  else if c = '\x08' then "\\b".toList
  else if c = '\x0c' then "\\f".toList
  else if c = '\n' then "\\n".toList
  else if c = '\r' then "\\r".toList
  else if c = '\t' then "\\t".toList
  else if c.toNat < 0x20 then "\\u".toList ++ (Text.hexOfNat c.toNat).leftpad 4 '0'
  else [c]

/-- A string between its quotes. -/
def string (t : Text) : Text :=
  '"' :: t.flatMap escapedChar ++ ['"']

/-- The start of a new line at a level of indentation; without a level nothing breaks. -/
def lineStart : Option Nat → Text
  | none => []
  | some level => '\n' :: List.replicate (2 * level) ' '

/-- What stands between the name of a field and its value. -/
def colon (level : Option Nat) : Text :=
  if level.isSome then ": ".toList else ":".toList

mutual

/-- The value, inside something that is indented by `level`. -/
def write (level : Option Nat) : Json → Text
  | null => "null".toList
  | int n => Text.ofInt n
  | float x => numberLayout.render x
  | str t => string t
  | arr items =>
    if items.isEmpty then "[]".toList
    else '[' :: writeItems (level.map (· + 1)) items ++ lineStart level ++ [']']
  | obj fields =>
    if fields.isEmpty then "\x7b\x7d".toList
    else '\x7b' :: writeFields (level.map (· + 1)) fields ++ lineStart level ++ ['\x7d']

/-- The items of a list, each at the start of a line and with a comma between two. -/
def writeItems (level : Option Nat) : List Json → Text
  | [] => []
  | [j] => lineStart level ++ write level j
  | j :: js => lineStart level ++ write level j ++ ',' :: writeItems level js

/-- The fields of an object, each at the start of a line and with a comma between two. -/
def writeFields (level : Option Nat) : List (Text × Json) → Text
  | [] => []
  | [f] => lineStart level ++ string f.1 ++ colon level ++ write level f.2
  | f :: fs =>
    lineStart level ++ string f.1 ++ colon level ++ write level f.2 ++
      ',' :: writeFields level fs

end

/-- The value on one line, without blanks. -/
def compact (j : Json) : Text := write none j

/-- The value over several lines, indented by two blanks for each level. -/
def pretty (j : Json) : Text := write (some 0) j

end Json

end AngleLexer
