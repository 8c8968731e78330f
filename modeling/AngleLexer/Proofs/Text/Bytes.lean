import AngleLexer.Text.Basic

/-!
# The bytes of a text

Files and labels count in bytes of the UTF-8 form (`Text.bytes`), and not every number of bytes is
a place in a text: one that falls inside a character, or beyond the end, is none. `Text.IsBoundary`
is the notion of a place that the standard library has for strings. A number of bytes is a boundary
exactly if a beginning of the text has so many (`Text.isBoundary_iff`), and between two boundaries
lie the bytes of a text (`Text.extract_bytes`).

Whoever keeps places as numbers of bytes has to **cut** texts at them, and that fails anywhere else
(`Text.isSome_cut?_iff`). A search returns a number of bytes as well, and the text can be cut there.
-/

namespace AngleLexer.Text

/-- The UTF-8 form of a text. -/
def bytes (t : Text) : ByteArray := (String.ofList t).toUTF8

theorem bytes_append (s t : Text) : (s ++ t).bytes = s.bytes ++ t.bytes :=
  List.utf8Encode_append

theorem size_bytes (t : Text) : t.bytes.size = t.utf8Length := by
  induction t with
  | nil => rfl
  | cons c t ih =>
    have hc : (bytes [c]).size = c.utf8Size := by
      rw [bytes, String.toUTF8, String.toByteArray_ofList, List.utf8Encode_singleton,
        List.size_toByteArray, String.length_utf8EncodeChar]
    rw [← List.singleton_append, bytes_append, ByteArray.size_append, hc, ih]
    rfl

/-- A text inside a file is cut out of its bytes by the bytes before either end. -/
theorem extract_bytes {s t file : Text} (h : (s ++ t) <+: file) :
    file.bytes.extract s.utf8Length (s ++ t).utf8Length = t.bytes := by
  obtain ⟨u, rfl⟩ := h
  rw [List.append_assoc, utf8Length_append, ← size_bytes, bytes_append, bytes_append, ← size_bytes,
    ← Nat.add_zero s.bytes.size, Nat.add_assoc, ByteArray.extract_append_size_add, Nat.zero_add]
  exact ByteArray.extract_append_eq_left rfl

theorem utf8Length_le_of_prefix {s t : Text} (h : s <+: t) : s.utf8Length ≤ t.utf8Length := by
  obtain ⟨u, rfl⟩ := h
  rw [utf8Length_append]
  exact Nat.le_add_right _ _

theorem utf8Length_pos {t : Text} (h : t ≠ []) : 0 < t.utf8Length := by
  obtain ⟨c, rest, rfl⟩ := List.exists_cons_of_ne_nil h
  exact Nat.lt_of_lt_of_le c.utf8Size_pos (Nat.le_add_right _ _)

/-- The first characters of a text have bytes. -/
theorem utf8Length_take_pos {n : Nat} (h : 0 < n) (c : Char) (t : Text) :
    0 < utf8Length ((c :: t).take n) := by
  obtain ⟨m, rfl⟩ := Nat.exists_eq_succ_of_ne_zero (Nat.ne_of_gt h)
  exact utf8Length_pos (List.cons_ne_nil _ _)

/-- The first characters and those behind them have the bytes of the text. -/
theorem utf8Length_take_add_drop (n : Nat) (t : Text) :
    utf8Length (t.take n) + utf8Length (t.drop n) = t.utf8Length := by
  rw [← utf8Length_append, List.take_append_drop]

theorem utf8Length_take_add (m n : Nat) (t : Text) :
    utf8Length (t.take (m + n)) = utf8Length (t.take m) + utf8Length ((t.drop m).take n) := by
  rw [List.take_add, utf8Length_append]

theorem utf8Length_toList (s : String) : utf8Length s.toList = s.utf8ByteSize := by
  rw [← size_bytes, bytes, String.ofList_toList]
  rfl

/-! ## Boundaries -/

/-- A number of bytes in front of which no character of the text is cut. -/
def IsBoundary (t : Text) (n : Nat) : Prop :=
  String.Pos.Raw.IsValid (String.ofList t) ⟨n⟩

/-- **A boundary lies behind a beginning of the text.** -/
theorem isBoundary_iff {t : Text} {n : Nat} :
    t.IsBoundary n ↔ ∃ s : Text, s <+: t ∧ s.utf8Length = n := by
  simp only [IsBoundary, String.Pos.Raw.isValid_ofList, ← utf8Length_toList, String.toList_ofList]
  constructor
  · rintro ⟨i, rfl⟩
    exact ⟨t.take i, List.take_prefix i t, rfl⟩
  · rintro ⟨s, hs, rfl⟩
    exact ⟨s.length, congrArg utf8Length (List.prefix_iff_eq_take.1 hs)⟩

theorem isBoundary_of_isPrefix {s t : Text} (h : s <+: t) : t.IsBoundary s.utf8Length :=
  isBoundary_iff.2 ⟨s, h, rfl⟩

/-! ## Cuts -/

/-- The two parts of a text of which the first has `n` bytes. A text cannot be cut inside a character or
behind its end. -/
def cut? : Nat → Text → Option (Text × Text)
  | 0, t => some ([], t)
  | _ + 1, [] => none
  | n + 1, c :: t =>
    if c.utf8Size ≤ n + 1 then (cut? (n + 1 - c.utf8Size) t).map fun (s, u) => (c :: s, u) else none

/-- The part of a text from byte `i` to byte `j`. -/
def slice? (t : Text) (i j : Nat) : Option Text := do
  let (front, _) ← cut? j t
  let (_, part) ← cut? i front
  return part

/-- The part of a text from byte `i` on. -/
def sliceFrom? (t : Text) (i : Nat) : Option Text := do
  let (_, part) ← cut? i t
  return part

theorem cut?_append (s t : Text) : cut? s.utf8Length (s ++ t) = some (s, t) := by
  induction s with
  | nil => rw [utf8Length, List.nil_append, cut?]
  | cons c s ih =>
    obtain ⟨n, hn⟩ := Nat.exists_eq_succ_of_ne_zero (Nat.ne_of_gt c.utf8Size_pos)
    have hlength : utf8Length (c :: s) = n + utf8Length s + 1 := by
      rw [utf8Length, hn, Nat.succ_add]
    have hrest : n + utf8Length s + 1 - c.utf8Size = utf8Length s := by omega
    rw [hlength, List.cons_append, cut?, if_pos (by omega), hrest, ih]
    rfl

theorem eq_append_of_cut? {n : Nat} {t s u : Text} (h : cut? n t = some (s, u)) :
    t = s ++ u ∧ s.utf8Length = n := by
  fun_induction cut? n t generalizing s u with
  | case1 t =>
    cases h
    exact ⟨rfl, rfl⟩
  | case2 n => cases h
  | case3 n c t hc ih =>
    obtain ⟨⟨s', u'⟩, hcut, heq⟩ := Option.map_eq_some_iff.1 h
    cases heq
    obtain ⟨rfl, hlength⟩ := ih hcut
    refine ⟨rfl, ?_⟩
    rw [utf8Length, hlength]
    omega
  | case4 n c t hc => cases h

/-- **A text can be cut** exactly at its boundaries. -/
theorem isSome_cut?_iff {n : Nat} {t : Text} : (cut? n t).isSome ↔ t.IsBoundary n := by
  rw [isBoundary_iff, Option.isSome_iff_exists]
  constructor
  · rintro ⟨⟨s, u⟩, h⟩
    obtain ⟨rfl, hlength⟩ := eq_append_of_cut? h
    exact ⟨s, List.prefix_append s u, hlength⟩
  · rintro ⟨s, ⟨u, rfl⟩, rfl⟩
    exact ⟨(s, u), cut?_append s u⟩

/-- The first character has two bytes. -/
example : cut? 1 ['é', '€'] = none ∧ cut? 2 ['é', '€'] = some (['é'], ['€']) := by
  decide

theorem slice?_append (s t u : Text) :
    slice? (s ++ t ++ u) s.utf8Length (s ++ t).utf8Length = some t := by
  rw [slice?, cut?_append]
  simp only [Option.bind_eq_bind, Option.bind_some, cut?_append]
  rfl

theorem sliceFrom?_append (s t : Text) : sliceFrom? (s ++ t) s.utf8Length = some t := by
  rw [sliceFrom?, cut?_append]
  rfl

/-! ## Searches -/

/-- The bytes before the first character that satisfies a condition. -/
def find? (p : Char → Bool) : Text → Option Nat
  | [] => none
  | c :: t => if p c then some 0 else (find? p t).map (c.utf8Size + ·)

/-- The bytes before the first place where a text is found. -/
def findText? (x : Text) : Text → Option Nat
  | [] => if x = [] then some 0 else none
  | c :: t => if x <+: c :: t then some 0 else (findText? x t).map (c.utf8Size + ·)

/-- Up to the first character that satisfies a condition, or else to the end, none does. -/
theorem find?_getD (p : Char → Bool) (t : Text) :
    (find? p t).getD t.utf8Length = utf8Length (t.takeWhile fun c => !p c) := by
  induction t with
  | nil => rfl
  | cons c t ih =>
    rw [find?, List.takeWhile_cons]
    rcases p c with _ | _
    · rw [Bool.not_false, if_pos rfl, if_neg Bool.false_ne_true, utf8Length, utf8Length, ← ih]
      rcases find? p t with _ | n <;> rfl
    · rfl

end AngleLexer.Text
