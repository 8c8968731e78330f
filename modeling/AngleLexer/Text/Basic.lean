/-!
# Source text

A source text is the list of its characters. Everything the library says about a text is
counted in characters; only a label of a diagnostic points into the UTF-8 form of a file, and
`Text.utf8Length` is the one place that counts in bytes.

* `isSpace` is the property White_Space. It separates tokens, and it is also what
  `Text.collapse` folds when a stretch of source is quoted in one line.
* `isLineBreak` singles out the seven white-space characters that end a line of text. A string
  literal never crosses one of them.
* `Text.lines` is the coarser notion that positions and files use: only a line feed ends a line.
-/

namespace AngleLexer

/-- A text, as the list of its characters. -/
abbrev Text := List Char

/-! ## White space -/

/-- The property White_Space. -/
def isSpace (c : Char) : Bool :=
  let n := c.toNat
  (0x9 ≤ n && n ≤ 0xD) || n == 0x20 || n == 0x85 || n == 0xA0 || n == 0x1680 ||
    (0x2000 ≤ n && n ≤ 0x200A) || n == 0x2028 || n == 0x2029 || n == 0x202F || n == 0x205F ||
    n == 0x3000

/-- The characters that end a line of text: line feed, vertical tab, form feed, carriage return,
next line, line separator and paragraph separator. -/
def isLineBreak (c : Char) : Bool :=
  let n := c.toNat
  (0xA ≤ n && n ≤ 0xD) || n == 0x85 || n == 0x2028 || n == 0x2029

/-- Every line break is white space, so what follows a broken string is trivia. -/
theorem isSpace_of_isLineBreak {c : Char} (h : isLineBreak c = true) : isSpace c = true := by
  simp only [isLineBreak, isSpace, Bool.or_eq_true, Bool.and_eq_true, decide_eq_true_eq,
    beq_iff_eq] at h ⊢
  omega

namespace Text

/-- Every run of white space becomes one blank: of a run, only its last character is kept, and a
blank stands for it. -/
def collapse : Text → Text
  | [] => []
  | c :: rest =>
    if isSpace c then
      if rest.head?.any isSpace then collapse rest else ' ' :: collapse rest
    else c :: collapse rest

/-! ## Lines and bytes -/

/-- Put a character in front of the first of several lines. -/
def prependToFirst (c : Char) : List Text → List Text
  | [] => [[c]]
  | line :: lines => (c :: line) :: lines

/-- The lines of a text, each with the line feed that ends it. A text has one line more than it
has line feeds, so the last line may be empty. -/
def lines : Text → List Text
  | [] => [[]]
  | c :: rest => if c = '\n' then [c] :: lines rest else prependToFirst c (lines rest)

@[simp] theorem flatten_prependToFirst (c : Char) (ls : List Text) :
    (prependToFirst c ls).flatten = c :: ls.flatten := by
  cases ls <;> rfl

/-- Cutting a text into lines loses nothing. -/
@[simp] theorem flatten_lines (t : Text) : (lines t).flatten = t := by
  induction t with
  | nil => rfl
  | cons c rest ih =>
    unfold lines
    split
    · rename_i hc
      simp [ih, hc]
    · rw [flatten_prependToFirst, ih]

/-- The number of bytes of the UTF-8 form of a text. -/
def utf8Length : Text → Nat
  | [] => 0
  | c :: rest => c.utf8Size + utf8Length rest

@[simp] theorem utf8Length_append (s t : Text) :
    utf8Length (s ++ t) = utf8Length s + utf8Length t := by
  induction s with
  | nil => rw [List.nil_append, utf8Length, Nat.zero_add]
  | cons c rest ih => rw [List.cons_append, utf8Length, utf8Length, ih, Nat.add_assoc]

/-! ## Numerals -/

/-- The decimal numeral of a number. -/
def ofNat (n : Nat) : Text :=
  Nat.toDigits 10 n

/-- The decimal numeral of an integer, with a minus sign in front of a negative one. -/
def ofInt (n : Int) : Text :=
  if n < 0 then '-' :: ofNat n.natAbs else ofNat n.natAbs

/-- The numeral of a number in base sixteen, with small letters. -/
def hexOfNat (n : Nat) : Text :=
  Nat.toDigits 16 n

end Text

end AngleLexer
