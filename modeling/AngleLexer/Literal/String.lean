import AngleLexer.Escape
import AngleLexer.Literal.Fault

/-!
# The value of a string literal

Between its quotes a string literal is a sequence of items, each of which denotes one character. A
backslash starts an escape sequence, a brace opens a group that holds the number of a character, as
in `{0x1F600}`, and every other character denotes itself, a closing brace that closes nothing
included.

`StringLiteral.value` finds the characters that the items denote; the first item that denotes none
is the fault. A group reaches to the brace that closes it, groups inside counted, and one that is
never closed reaches to the end of the literal.
-/

namespace AngleLexer.StringLiteral

/-! ## Characters by their numbers -/

/-- Numbers from here on are not told apart as numbers of characters. -/
def numberLimit : Nat := Nat.pow 2 32

/-- The character whose number the digits denote in base sixteen. -/
def numbered (digits : Text) : Except LiteralFault Char :=
  match Radix.hexadecimal.natOf? digits with
  | none => .error (.badEscape digits)
  | some n =>
    if numberLimit ≤ n then .error (.badEscape digits)
    else if h : n.isValidChar then .ok (Char.ofNatAux n h)
    else .error (.badCodePoint n)

/-- The content of a group whose opening brace the text follows, and the text after the group.
Inside, `depth` further groups are open. -/
def group (depth : Nat) : Text → Text × Text
  | [] => ([], [])
  | c :: rest =>
    if c = '\x7d' then
      match depth with
      | 0 => ([], rest)
      | n + 1 => (group n rest).map (c :: ·) id
    else
      (group (if c = '\x7b' then depth + 1 else depth) rest).map (c :: ·) id

/-- What follows a group is no longer than what follows its opening brace. -/
theorem length_group_le (depth : Nat) (t : Text) : (group depth t).2.length ≤ t.length := by
  fun_induction group depth t with
  | case1 => exact Nat.le_refl _
  | case2 rest => exact Nat.le_succ _
  | case3 rest n ih => exact Nat.le_succ_of_le ih
  | case4 depth c rest _ ih => exact Nat.le_succ_of_le ih

/-- The character that the content of a group denotes. -/
def ofGroup : Text → Except LiteralFault Char
  | '0' :: 'x' :: digits =>
    if digits.isEmpty || !digits.all isHexDigit then .error (.badGroup ('0' :: 'x' :: digits))
    else numbered digits
  | content => .error (.badGroup content)

/-- The character that an escape sequence denotes. -/
def ofEscape : Escape → Except LiteralFault Char
  | .simple denoted => .ok denoted
  | .codePoint digits => numbered digits
  | .shortCodePoint digits => .error (.badEscape ('\\' :: 'u' :: digits))
  | .unknown c => .error (.badEscape ['\\', c])
  | .missing => .error (.badEscape ['\\'])

/-! ## Items -/

/-- The character that the first item denotes, if it denotes one, and the text after that item.
The item starts with `c`, which `rest` follows. -/
def firstItem (c : Char) (rest : Text) : Except LiteralFault Char × Text :=
  if c = '\\' then
    let escape := Escape.read rest
    (ofEscape escape, rest.drop escape.width)
  else if c = '\x7b' then (group 0 rest).map ofGroup id
  else (.ok c, rest)

/-- What follows an item is no longer than what follows its first character. -/
theorem length_firstItem_le (c : Char) (rest : Text) :
    (firstItem c rest).2.length ≤ rest.length := by
  unfold firstItem
  split
  · simp only [List.length_drop]
    omega
  · split
    · exact length_group_le 0 rest
    · exact Nat.le_refl _

/-- The characters that a sequence of items denotes. -/
def ofItems : Text → Except LiteralFault Text
  | [] => .ok []
  | c :: rest =>
    let item := firstItem c rest
    match item.1 with
    | .error fault => .error fault
    | .ok denoted => (ofItems item.2).map (denoted :: ·)
termination_by t => t.length
decreasing_by exact Nat.lt_succ_of_le (length_firstItem_le c rest)

@[simp] theorem ofItems_nil : ofItems [] = .ok [] := by
  rw [ofItems]

/-- The first item decides first: its fault is the fault of the whole. -/
theorem ofItems_cons (c : Char) (rest : Text) :
    ofItems (c :: rest) =
      (firstItem c rest).1.bind fun denoted =>
        (ofItems (firstItem c rest).2).map (denoted :: ·) := by
  rw [ofItems]
  cases h : (firstItem c rest).1 <;> rfl

/-! ## Literals -/

/-- The text between two quotes, which must be two. -/
def unquote? : Text → Option Text
  | '"' :: rest => if rest.getLast? = some '"' then some rest.dropLast else none
  | _ => none

/-- The characters that a string literal denotes. -/
def value (t : Text) : Except LiteralFault Text :=
  match unquote? t with
  | none => .error (.unquoted t)
  | some items => ofItems items

end AngleLexer.StringLiteral
