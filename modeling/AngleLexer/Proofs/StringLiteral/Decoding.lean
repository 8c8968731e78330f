import AngleLexer.Literal.String
import AngleLexer.Proofs.Numeral
import AngleLexer.Proofs.StringLiteral.Closing

/-!
# Items and groups, one at a time

How the value of a string literal is found, item by item, and what can go wrong with a single item.
The number of a character fails in two ways (`StringLiteral.numbered_error_cases`): it is no scalar
value, or it is so large that it is not told apart any more. The content of a group is the number of
a character only if none of its characters means anything in a literal, and then the group is as
long as it looks (`StringLiteral.group_append`, `StringLiteral.eq_append_of_group`).
-/

namespace AngleLexer.StringLiteral

open Radix (hexadecimal)

/-! ## Characters by their numbers -/

theorem numbered_eq {digits : Text} (hne : digits ≠ [])
    (hdigits : ∀ c ∈ digits, isHexDigit c = true) :
    numbered digits =
      if numberLimit ≤ hexadecimal.valueOf digits then .error (.badEscape digits)
      else if h : (hexadecimal.valueOf digits).isValidChar then
        .ok (Char.ofNatAux (hexadecimal.valueOf digits) h)
      else .error (.badCodePoint (hexadecimal.valueOf digits)) := by
  rw [numbered, Radix.natOf?_eq_some_iff.2 ⟨hne, hdigits, rfl⟩]

/-- The number of a character denotes that character. -/
theorem numbered_of_valueOf {digits : Text} {c : Char} (hne : digits ≠ [])
    (hdigits : ∀ d ∈ digits, isHexDigit d = true) (hvalue : hexadecimal.valueOf digits = c.toNat) :
    numbered digits = .ok c := by
  have hvalid : (hexadecimal.valueOf digits).isValidChar := hvalue ▸ c.valid
  have hlt : hexadecimal.valueOf digits < numberLimit := by
    rcases hvalid with h | h
    · exact Nat.lt_trans h (by decide)
    · exact Nat.lt_trans h.2 (by decide)
  rw [numbered_eq hne hdigits, if_neg (Nat.not_le.2 hlt), dif_pos hvalid]
  exact congrArg _ (Char.toNat_inj.1 hvalue)

/-- Digits denote no character if their number is too large to be told apart, or if it is a
surrogate or beyond the last character. -/
theorem numbered_error_cases {digits : Text} {fault : LiteralFault} (hne : digits ≠ [])
    (hdigits : ∀ c ∈ digits, isHexDigit c = true) (h : numbered digits = .error fault) :
    fault = .badEscape digits ∧ numberLimit ≤ hexadecimal.valueOf digits ∨
      ∃ n, fault = .badCodePoint n ∧ (0xD800 ≤ n ∧ n ≤ 0xDFFF ∨ 0x10FFFF < n) := by
  rw [numbered_eq hne hdigits] at h
  by_cases hlarge : numberLimit ≤ hexadecimal.valueOf digits
  · rw [if_pos hlarge] at h
    cases h
    exact Or.inl ⟨rfl, hlarge⟩
  · rw [if_neg hlarge] at h
    by_cases hvalid : (hexadecimal.valueOf digits).isValidChar
    · rw [dif_pos hvalid] at h
      cases h
    · rw [dif_neg hvalid] at h
      cases h
      refine Or.inr ⟨_, rfl, ?_⟩
      unfold Nat.isValidChar at hvalid
      omega

/-! ## Groups -/

/-- Behind characters that mean nothing a closing brace ends the group. -/
theorem group_append {content : Text} (h : ∀ c ∈ content, c ∉ Lexeme.reserved) (t : Text) :
    group 0 (content ++ '\x7d' :: t) = (content, t) := by
  induction content with
  | nil => rfl
  | cons c content ih =>
    obtain ⟨hc, hcontent⟩ := List.forall_mem_cons.1 h
    obtain ⟨-, -, hopen, hclose, -⟩ := Lexeme.not_mem_reserved_iff.1 hc
    rw [List.cons_append, group, if_neg hclose, if_neg hopen, ih hcontent]
    rfl

/-- A group that holds only such characters is ended by the next closing brace, or by the end of the
literal. -/
theorem eq_append_of_group {t : Text} (h : ∀ c ∈ (group 0 t).1, c ∉ Lexeme.reserved) :
    t = (group 0 t).1 ++ '\x7d' :: (group 0 t).2 ∨ t = (group 0 t).1 ∧ (group 0 t).2 = [] := by
  induction t with
  | nil => exact Or.inr ⟨rfl, rfl⟩
  | cons c t ih =>
    rw [group] at h ⊢
    split
    · rename_i hc
      exact Or.inl (congrArg (· :: t) hc)
    · rename_i hc
      rw [if_neg hc] at h
      obtain ⟨hhead, hcontent⟩ := List.forall_mem_cons.1 h
      obtain ⟨-, -, hopen, -, -⟩ := Lexeme.not_mem_reserved_iff.1 hhead
      rw [if_neg hopen] at hcontent ⊢
      rcases ih hcontent with ht | ⟨ht, hnil⟩
      · exact Or.inl (congrArg (c :: ·) ht)
      · exact Or.inr ⟨congrArg (c :: ·) ht, hnil⟩

/-- A group that holds a code point denotes what its digits do. -/
theorem ofGroup_digits {digits : Text} (hne : digits ≠ [])
    (hdigits : ∀ c ∈ digits, isHexDigit c = true) :
    ofGroup ('0' :: 'x' :: digits) = numbered digits := by
  rw [ofGroup, if_neg]
  simpa [hne] using hdigits

/-- Any other content of a group is a fault of its own. -/
theorem ofGroup_cases (content : Text) :
    (∃ digits, content = '0' :: 'x' :: digits ∧ digits ≠ [] ∧ ∀ c ∈ digits, isHexDigit c = true) ∨
      ofGroup content = .error (.badGroup content) := by
  unfold ofGroup
  split
  · rename_i digits
    split
    · exact Or.inr rfl
    · rename_i h
      rw [Bool.or_eq_true, not_or, List.isEmpty_iff, Bool.not_eq_true', Bool.not_eq_false,
        List.all_eq_true] at h
      exact Or.inl ⟨digits, rfl, h⟩
  · exact Or.inr rfl

/-! ## The first item -/

theorem ofItems_escape (rest : Text) :
    ofItems ('\\' :: rest) = (ofEscape (Escape.read rest)).bind fun denoted =>
      (ofItems (rest.drop (Escape.read rest).width)).map (denoted :: ·) := by
  rw [ofItems_cons]
  rfl

theorem ofItems_group (rest : Text) :
    ofItems ('\x7b' :: rest) = (ofGroup (group 0 rest).1).bind fun denoted =>
      (ofItems (group 0 rest).2).map (denoted :: ·) := by
  rw [ofItems_cons]
  rfl

/-- A character that starts no sequence and no group denotes itself. -/
theorem ofItems_self {c : Char} (hescape : c ≠ '\\') (hopen : c ≠ '\x7b') (rest : Text) :
    ofItems (c :: rest) = (ofItems rest).map (c :: ·) := by
  rw [ofItems_cons, firstItem, if_neg hescape, if_neg hopen]
  rfl

/-- The value of a quoted text is that of the items between the quotes. -/
theorem value_quoted (body : Text) : value (Lexeme.quoted body) = ofItems body := by
  rw [Lexeme.quoted, value, unquote?, if_pos List.getLast?_concat, List.dropLast_concat]

end AngleLexer.StringLiteral
