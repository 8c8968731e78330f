import AngleLexer.Text.Basic

/-!
# Positions and spans

A **position** is a line, counted from one, and a column, counted from zero in characters. Only a
line feed starts a new line; every other character, a carriage return included, takes one column.
Text acts on positions (`Position.after`), and positions are ordered first by line and then by
column, which is the order in which reading passes them.

A **span** is a pair of positions, the place where a piece of text begins and the place right
after it.
-/

namespace AngleLexer

/-- A place in a source text. -/
structure Position where
  /-- the line, counted from one -/
  line : Nat
  /-- the characters that stand before the place on its line -/
  column : Nat
deriving DecidableEq

namespace Position

/-- The place where every text starts. -/
def start : Position := ⟨1, 0⟩

instance : Inhabited Position := ⟨start⟩

/-- The place right after a character that stands at `p`. -/
def advance (p : Position) (c : Char) : Position :=
  if c = '\n' then ⟨p.line + 1, 0⟩ else ⟨p.line, p.column + 1⟩

/-- The place right after a text that begins at `p`. -/
def after (p : Position) (t : Text) : Position :=
  t.foldl advance p

/-- The places after each character of a text that begins at `p`. -/
def trail (p : Position) : Text → List Position
  | [] => []
  | c :: t => p.advance c :: (p.advance c).trail t

/-- Positions compare by line, and by column on one line. -/
instance : Ord Position :=
  ⟨fun p q => (compare p.line q.line).then (compare p.column q.column)⟩

instance : LT Position := ltOfOrd

instance : LE Position := leOfOrd

/-- A position is written `line:column`. -/
def toText (p : Position) : Text :=
  Text.ofNat p.line ++ ':' :: Text.ofNat p.column

@[simp] theorem after_nil (p : Position) : p.after [] = p := rfl

@[simp] theorem after_cons (p : Position) (c : Char) (t : Text) :
    p.after (c :: t) = (p.advance c).after t := rfl

theorem after_append (p : Position) (s t : Text) : p.after (s ++ t) = (p.after s).after t :=
  List.foldl_append

end Position

/-- A stretch of a source text, from its first place to the place right after it. -/
structure Span where
  /-- where the stretch begins -/
  first : Position
  /-- the place right after the stretch -/
  last : Position
deriving DecidableEq

namespace Span

/-- The empty span at a place. -/
def emptyAt (p : Position) : Span := ⟨p, p⟩

/-- The span of a text that begins at `p`. -/
def ofText (p : Position) (t : Text) : Span := ⟨p, p.after t⟩

/-- A span is empty when it ends where it begins. -/
def isEmpty (s : Span) : Bool := decide (s.first = s.last)

/-- A span is written as its two ends with a hyphen between them. -/
def toText (s : Span) : Text :=
  s.first.toText ++ '-' :: s.last.toText

end Span

end AngleLexer
