import AngleLexer.Lexeme.Basic
import Mathlib.Data.List.TakeWhile

/-!
# Forms with an end of their own

A name between backticks, a literal between apostrophes and a block comment end where their own text
says so. Each of them is found exactly where its text begins (`Finds`), whatever follows it
(`Finds.replace`).
-/

namespace AngleLexer.Lexeme

/-- Of every text, the measure gives the length of the form that the text starts with. -/
def Finds (measure : Text → Option Nat) (IsForm : Text → Prop) : Prop :=
  ∀ t n, measure t = some n ↔ ∃ x rest, t = x ++ rest ∧ IsForm x ∧ n = x.length

theorem Finds.le {measure : Text → Option Nat} {IsForm : Text → Prop} (h : Finds measure IsForm)
    {t : Text} {n : Nat} (hn : measure t = some n) : n ≤ t.length := by
  obtain ⟨x, rest, rfl, -, rfl⟩ := (h t n).1 hn
  rw [List.length_append]
  exact Nat.le_add_right _ _

/-- What stands behind a form does not matter. -/
theorem Finds.replace {measure : Text → Option Nat} {IsForm : Text → Prop}
    (h : Finds measure IsForm) {v s : Text} (hv : measure (v ++ s) = some v.length) (t : Text) :
    measure (v ++ t) = some v.length := by
  obtain ⟨x, rest, hx, hform, hlength⟩ := (h _ _).1 hv
  obtain rfl := (List.append_inj hx hlength).1
  exact (h _ _).2 ⟨v, t, rfl, hform, rfl⟩

/-! ## Names between backticks -/

/-- What follows the opening backtick of a name, through the closing one. -/
def IsNameTail (x : Text) : Prop :=
  ∃ name, x = name ++ ['\x60'] ∧ name ≠ [] ∧ ∀ c ∈ name, c ≠ '\x60' ∧ isLineEnd c = false

theorem finds_escapedNameTail? : Finds escapedNameTail? IsNameTail := by
  intro t n
  have hinside {c : Char} : (c != '\x60' && !isLineEnd c) = true ↔ c ≠ '\x60' ∧ isLineEnd c = false := by
    rw [Bool.and_eq_true, bne_iff_ne, Bool.not_eq_true']
  constructor
  · intro h
    unfold escapedNameTail? at h
    dsimp only at h
    split at h
    · cases h
    · split at h
      · rename_i hne hquote
        obtain rfl := Option.some.inj h
        obtain ⟨rest, hrest⟩ := List.head?_eq_some_iff.1 hquote
        refine ⟨_, rest, ?_, ⟨_, rfl, mt List.isEmpty_iff.2 hne, ?_⟩, by simp⟩
        · rw [List.append_assoc, List.singleton_append, ← hrest]
          exact (List.prefix_iff_eq_append.1 (List.takeWhile_prefix _)).symm
        · intro c hc
          have hall := List.all_takeWhile (p := fun c => c != '\x60' && !isLineEnd c) (l := t)
          exact hinside.1 (List.all_eq_true.1 hall c hc)
      · cases h
  · rintro ⟨_, rest, rfl, ⟨name, rfl, hne, hname⟩, rfl⟩
    have htake : (name ++ ['\x60'] ++ rest).takeWhile (fun c => c != '\x60' && !isLineEnd c) = name := by
      rw [List.append_assoc, List.takeWhile_append_of_pos fun c hc => hinside.2 (hname c hc)]
      simp
    rw [escapedNameTail?, htake]
    simp [hne]

/-! ## Literals between apostrophes -/

/-- What follows the opening apostrophe of a literal, through the closing one. -/
inductive IsCharTail : Text → Prop
  /-- the closing apostrophe -/
  | close : IsCharTail ['\'']
  /-- a backslash and the character that it protects -/
  | escape {c : Char} {x : Text} (inLine : isLineEnd c = false) (tail : IsCharTail x) :
    IsCharTail ('\\' :: c :: x)
  /-- any other character of the line -/
  | plain {c : Char} {x : Text} (notClose : c ≠ '\'') (notEscape : c ≠ '\\')
    (inLine : isLineEnd c = false) (tail : IsCharTail x) : IsCharTail (c :: x)

theorem finds_charTail? : Finds charTail? IsCharTail := by
  intro t n
  constructor
  · intro h
    fun_induction charTail? t generalizing n with
    | case1 => cases h
    | case2 rest =>
      obtain rfl := Option.some.inj h
      exact ⟨['\''], rest, rfl, .close, rfl⟩
    | case3 c rest hc => cases h
    | case4 c rest hc ih =>
      obtain ⟨m, hm, rfl⟩ := Option.map_eq_some_iff.1 h
      obtain ⟨x, behind, rfl, hx, rfl⟩ := ih m hm
      exact ⟨'\\' :: c :: x, behind, rfl, .escape (Bool.not_eq_true _ ▸ hc) hx, rfl⟩
    | case5 => cases h
    | case6 c rest hquote hescape hc ih =>
      obtain ⟨m, hm, rfl⟩ := Option.map_eq_some_iff.1 h
      obtain ⟨x, behind, rfl, hx, rfl⟩ := ih m hm
      obtain ⟨hfree, hline⟩ := not_or.1 hc
      exact ⟨c :: x, behind, rfl, .plain hquote hfree (Bool.not_eq_true _ ▸ hline) hx, rfl⟩
  · rintro ⟨x, rest, rfl, hx, rfl⟩
    induction hx with
    | close => rfl
    | escape inLine _ ih =>
      rw [List.cons_append, List.cons_append, charTail?, inLine, if_neg Bool.false_ne_true, ih]
      rfl
    | plain notClose notEscape inLine _ ih =>
      rw [List.cons_append, charTail?, if_neg (not_or.2 ⟨notEscape, Bool.not_eq_true _ ▸ inLine⟩), ih]
      · rfl
      · exact notClose
      · exact fun _ _ hescape _ => notEscape hescape

/-! ## Block comments -/

/-- What follows the opening mark of a block comment, through the first end mark. -/
inductive IsBlockTail : Text → Prop
  /-- the end mark -/
  | close : IsBlockTail ['*', '/']
  /-- a character that begins no end mark -/
  | inside {c : Char} {x : Text} (goesOn : c = '*' → x.head? ≠ some '/') (tail : IsBlockTail x) :
    IsBlockTail (c :: x)

theorem finds_blockEnd? : Finds blockEnd? IsBlockTail := by
  intro t n
  constructor
  · intro h
    fun_induction blockEnd? t generalizing n with
    | case1 => cases h
    | case2 rest =>
      obtain rfl := Option.some.inj h
      exact ⟨['*', '/'], rest, rfl, .close, rfl⟩
    | case3 c rest hne ih =>
      obtain ⟨m, hm, rfl⟩ := Option.map_eq_some_iff.1 h
      obtain ⟨x, behind, rfl, hx, rfl⟩ := ih m hm
      refine ⟨c :: x, behind, rfl, .inside ?_ hx, rfl⟩
      intro hstar hslash
      obtain ⟨y, rfl⟩ := List.head?_eq_some_iff.1 hslash
      exact hne (y ++ behind) hstar rfl
  · rintro ⟨x, rest, rfl, hx, rfl⟩
    induction hx with
    | close => rfl
    | @inside c x goesOn tail ih =>
      rw [List.cons_append, blockEnd?, ih]
      · rfl
      · intro y hstar hslash
        rcases x with _ | ⟨d, x⟩
        · cases tail
        · exact goesOn hstar (congrArg some (List.cons.inj hslash).1)

end AngleLexer.Lexeme
