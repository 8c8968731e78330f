import AngleLexer.Proofs.StringLiteral.Broken
import AngleLexer.Proofs.Text.Bytes

/-!
# String literals, measured in bytes

The scan of a string literal has to say where it ends in bytes. It goes over the characters of the text
together with the number of bytes before each of them (`Checked.placed`), and so it does not add up
what it took: where it stops, it looks at the place of the character it stopped at. A line break is left
behind, a closing quote is one byte, and a character that spoils an escape sequence is taken with as
many bytes as it has.

The end found in this way is the end that `Lexeme.stringTail` finds in characters
(`Checked.scan_placed`), so it never lies inside a character.
-/

namespace AngleLexer.Checked

/-- The characters of a text behind `n` bytes, each with the number of bytes before it. -/
def placed (n : Nat) : Text → List (Nat × Char)
  | [] => []
  | c :: t => (n, c) :: placed (n + c.utf8Size) t

/-- The bytes through the next character, or `size` if there is none. -/
def through (size : Nat) : List (Nat × Char) → Nat
  | [] => size
  | (n, c) :: _ => n + c.utf8Size

/-- Scan the inside of a string literal that stands at the given depth of braces, in a text of `size`
bytes. -/
def scan (size : Nat) (depth : Int) : List (Nat × Char) → Kind × Nat
  | [] => (.invalid, size)
  | (n, c) :: rest =>
    if c = '\\' then
      let escape := Escape.read (rest.map Prod.snd)
      match escape with
      | .simple _ | .codePoint _ => scan size depth (rest.drop escape.width)
      | .shortCodePoint _ => (.invalid, through size (rest.drop escape.width))
      | .unknown _ | .missing => (.invalid, through size rest)
    else if isLineBreak c then (.invalid, n)
    else if c = '\x7b' then scan size (depth + 1) rest
    else if c = '\x7d' then scan size (depth - 1) rest
    else if c = '"' ∧ depth = 0 then (.stringLiteral, n + 1)
    else scan size depth rest
termination_by t => t.length
decreasing_by
  · simp only [List.length_drop, List.length_cons]
    omega
  all_goals exact Nat.lt_succ_self _

/-- The kind and the length in bytes of what starts with an opening quote. -/
def string (t : Text) : Kind × Nat :=
  scan t.utf8Length 0 ((placed 0 t).drop 1)

/-! ## Places -/

theorem map_placed (n : Nat) (t : Text) : (placed n t).map Prod.snd = t := by
  induction t generalizing n with
  | nil => rfl
  | cons c t ih => rw [placed, List.map_cons, ih]

theorem drop_placed (k n : Nat) (t : Text) :
    (placed n t).drop k = placed (n + Text.utf8Length (t.take k)) (t.drop k) := by
  induction k generalizing n t with
  | zero => rfl
  | succ k ih =>
    rcases t with _ | ⟨c, t⟩
    · rfl
    · rw [placed, List.drop_succ_cons, ih, List.take_succ_cons, List.drop_succ_cons, Text.utf8Length,
        Nat.add_assoc]

theorem through_placed (n : Nat) (t : Text) :
    through (n + t.utf8Length) (placed n t) = n + Text.utf8Length (t.take 1) := by
  rcases t with _ | ⟨c, t⟩ <;> rfl

/-! ## The scan -/

/-- The kind of what a scan has taken. -/
def kindOf (finish : Lexeme.StringEnd) : Kind :=
  if finish = .closed then .stringLiteral else .invalid

/-- What a scan in characters took of a text behind `n` bytes, in bytes. -/
def inBytes (n : Nat) (t : Text) (s : Lexeme.StringScan) : Kind × Nat :=
  (kindOf s.finish, n + Text.utf8Length (t.take s.width))

/-- Where the scans of what stands behind `k` characters agree, they agree on the whole. -/
theorem scan_behind {n k : Nat} {depth : Int} {t : Text} {s : Lexeme.StringScan}
    (h : ∀ n, scan (n + Text.utf8Length (t.drop k)) depth (placed n (t.drop k)) = inBytes n (t.drop k) s) :
    scan (n + t.utf8Length) depth ((placed n t).drop k) = inBytes n t (s.widen k) := by
  rw [drop_placed, ← Text.utf8Length_take_add_drop k t, ← Nat.add_assoc, h, inBytes, inBytes,
    Lexeme.StringScan.widen, Nat.add_comm s.width, Text.utf8Length_take_add, Nat.add_assoc]

/-- A character that spoils an escape sequence is taken with all its bytes. -/
theorem through_drop (n k : Nat) (t : Text) :
    through (n + t.utf8Length) ((placed n t).drop k) = n + Text.utf8Length (t.take (k + 1)) := by
  rw [drop_placed, ← Text.utf8Length_take_add_drop k t, ← Nat.add_assoc, through_placed,
    Text.utf8Length_take_add, Nat.add_assoc]

/-- The scan goes on behind a legal escape sequence. -/
theorem scan_escape {size n : Nat} {depth : Int} {rest : Text} (h : (Escape.read rest).isLegal = true) :
    scan size depth (placed n ('\\' :: rest)) =
      scan size depth ((placed n ('\\' :: rest)).drop ((Escape.read rest).width + 1)) := by
  rw [placed, List.drop_succ_cons, scan, if_pos rfl, map_placed]
  dsimp only
  cases hread : Escape.read rest with
  | simple _ | codePoint _ => rfl
  | shortCodePoint _ | unknown _ | missing =>
    rw [hread] at h
    cases h

/-- **Both scans end at the same place.** -/
theorem scan_placed (n : Nat) (depth : Int) (t : Text) :
    scan (n + t.utf8Length) depth (placed n t) = inBytes n t (Lexeme.stringTail depth t) := by
  fun_induction Lexeme.stringTail depth t generalizing n with
  | case1 depth =>
    rw [placed, scan]
    rfl
  | case2 depth rest escape _ hread ih | case3 depth rest escape _ hread ih =>
    have hlegal : (Escape.read rest).isLegal = true := congrArg Escape.isLegal hread
    rw [scan_escape hlegal]
    exact scan_behind ih
  | case4 depth rest escape digits hread =>
    have hwidth : escape.width = digits.length + 1 := congrArg Escape.width hread
    have hthrough := through_drop n (digits.length + 2) ('\\' :: rest)
    -- too few digits may also be the last characters of the text
    have htake : rest.take (min (digits.length + 2) rest.length) = rest.take (digits.length + 2) := by
      rw [← List.take_take, List.take_length]
    have hkind : kindOf (if escape.width < rest.length then .badEscape else .inputOver) = .invalid := by
      split <;> rfl
    rw [inBytes, hkind, hwidth, List.take_succ_cons, htake, ← List.take_succ_cons]
    rw [placed, scan, if_pos rfl, map_placed, show Escape.read rest = .shortCodePoint digits from hread]
    exact congrArg (Kind.invalid, ·) hthrough
  | case5 depth rest escape c hread =>
    have hwidth : escape.width = 1 := congrArg Escape.width hread
    have hthrough := through_drop n 1 ('\\' :: rest)
    rw [hwidth, placed, scan, if_pos rfl, map_placed, show Escape.read rest = .unknown c from hread]
    exact congrArg (Kind.invalid, ·) hthrough
  | case6 depth rest escape hread =>
    obtain rfl := Escape.eq_nil_of_read_missing hread
    rw [placed, placed, scan, if_pos rfl]
    rfl
  | case7 depth c rest hescape hbreak =>
    rw [placed, scan, if_neg hescape, if_pos hbreak]
    rfl
  | case8 depth rest hescape hbreak ih =>
    rw [placed, scan, if_neg hescape, if_neg hbreak, if_pos rfl]
    exact scan_behind (n := n) (k := 1) (t := '\x7b' :: rest) ih
  | case9 depth rest hescape hbreak hopen ih =>
    rw [placed, scan, if_neg hescape, if_neg hbreak, if_neg hopen, if_pos rfl]
    exact scan_behind (n := n) (k := 1) (t := '\x7d' :: rest) ih
  | case10 depth c rest hescape hbreak hopen hclose hquote =>
    rw [placed, scan, if_neg hescape, if_neg hbreak, if_neg hopen, if_neg hclose, if_pos hquote, hquote.1]
    rfl
  | case11 depth c rest hescape hbreak hopen hclose hquote ih =>
    rw [placed, scan, if_neg hescape, if_neg hbreak, if_neg hopen, if_neg hclose, if_neg hquote]
    exact scan_behind (n := n) (k := 1) (t := c :: rest) ih

/-- What starts with a quote has the kind and the length in bytes that its lexeme says. -/
theorem string_eq (rest : Text) :
    (Category.token (string ('"' :: rest)).1, (string ('"' :: rest)).2) =
      ((Lexeme.string rest).category,
        Text.utf8Length (('"' :: rest).take (Lexeme.string rest).width)) := by
  have hscan := scan_behind (n := 0) (k := 1) (t := '"' :: rest) fun n => scan_placed n 0 rest
  rw [Nat.zero_add] at hscan
  rw [string, hscan, inBytes, Nat.zero_add]
  rfl

end AngleLexer.Checked
