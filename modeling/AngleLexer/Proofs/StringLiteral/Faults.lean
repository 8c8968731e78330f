import AngleLexer.Proofs.StringLiteral.Decoding

/-!
# Literals without a value

A string literal that was read may still have no value. The scan and the decoder keep together: as
long as the items denote characters, the decoder stands where the scan would close from some depth
of braces (`StringLiteral.closes_firstItem`), though not always from the depth at which the scan
came by. So the decoder never finds an escape sequence that the scan would not let pass, and what it
finds wrong is wrong with a number or with a group (`StringLiteral.isFaultOf_of_firstItem`).
-/

namespace AngleLexer.StringLiteral

open Lexeme (Closes quoted reserved)
open Radix (hexadecimal)

/-- What can be wrong with a literal that was read. -/
inductive IsFaultOf (t : Text) : LiteralFault → Prop
  /-- a group does not hold a code point -/
  | group (content : Text) : IsFaultOf t (.badGroup content)
  /-- the number of a code point is a surrogate or beyond the last character -/
  | number {n : Nat} (range : 0xD800 ≤ n ∧ n ≤ 0xDFFF ∨ 0x10FFFF < n) :
    IsFaultOf t (.badCodePoint n)
  /-- a group holds a code point of 33 or more bits -/
  | digits {digits : Text} (isHexDigit : ∀ c ∈ digits, isHexDigit c = true)
    (written : '\x7b' :: '0' :: 'x' :: digits <:+: t)
    (large : 2 ^ 32 ≤ hexadecimal.valueOf digits) : IsFaultOf t (.badEscape digits)

/-- What is wrong with a part is wrong with the whole. -/
theorem IsFaultOf.mono {s t : Text} {fault : LiteralFault} (h : IsFaultOf s fault)
    (hst : s <:+: t) : IsFaultOf t fault := by
  cases h with
  | group content => exact .group content
  | number range => exact .number range
  | digits isHexDigit written large => exact .digits isHexDigit (written.trans hst) large

/-! ## One item -/

theorem suffix_of_group (depth : Nat) (t : Text) : (group depth t).2 <:+ t := by
  fun_induction group depth t with
  | case1 => exact List.suffix_refl _
  | case2 rest => exact List.suffix_cons _ _
  | case3 rest n ih => exact ih.trans (List.suffix_cons _ _)
  | case4 depth c rest _ ih => exact ih.trans (List.suffix_cons _ _)

theorem suffix_of_firstItem (c : Char) (rest : Text) : (firstItem c rest).2 <:+ rest := by
  unfold firstItem
  split
  · exact List.drop_suffix _ _
  · split
    · exact suffix_of_group 0 rest
    · exact List.suffix_refl _

/-- A code point in an escape sequence is never too large to be told apart. -/
theorem isFaultOf_of_escape {rest t : Text} {fault : LiteralFault}
    (hlegal : (Escape.read rest).isLegal = true) (h : ofEscape (Escape.read rest) = .error fault) :
    IsFaultOf t fault := by
  rcases hread : Escape.read rest with denoted | digits | digits | c | _
  · rw [hread] at h
    cases h
  · rw [hread, ofEscape] at h
    obtain ⟨-, hdigits, hmin, hmax⟩ := Escape.eq_append_of_read_codePoint hread
    have hne : digits ≠ [] := List.length_pos_iff.1 (Nat.lt_of_lt_of_le (by decide) hmin)
    rcases numbered_error_cases hne hdigits h with ⟨-, hlarge⟩ | ⟨n, rfl, hn⟩
    · -- five digits are 20 bits
      have hlt := hexadecimal.valueOf_lt digits
      have hpow : hexadecimal.base ^ digits.length ≤ hexadecimal.base ^ Escape.maxDigits :=
        Nat.pow_le_pow_right (by decide) hmax
      exact absurd (Nat.lt_of_lt_of_le hlt hpow)
        (Nat.not_lt.2 (Nat.le_trans (by decide) hlarge))
    · exact .number hn
  all_goals
    rw [hread] at hlegal
    cases hlegal

/-- A group stands in the text with its content. -/
theorem infix_of_group {rest : Text} (h : ∀ c ∈ (group 0 rest).1, c ∉ reserved) :
    '\x7b' :: (group 0 rest).1 <:+: '\x7b' :: rest := by
  refine List.IsPrefix.isInfix (List.cons_prefix_cons.2 ⟨rfl, ?_⟩)
  rcases eq_append_of_group h with hrest | ⟨hrest, -⟩
  · exact ⟨_, hrest.symm⟩
  · exact ⟨[], (List.append_nil _).trans hrest.symm⟩

theorem isFaultOf_of_group {rest : Text} {fault : LiteralFault}
    (h : ofGroup (group 0 rest).1 = .error fault) : IsFaultOf ('\x7b' :: rest) fault := by
  rcases ofGroup_cases (group 0 rest).1 with ⟨digits, hcontent, hne, hdigits⟩ | hbad
  · rw [hcontent, ofGroup_digits hne hdigits] at h
    rcases numbered_error_cases hne hdigits h with ⟨rfl, hlarge⟩ | ⟨n, rfl, hn⟩
    · have hpart := infix_of_group (hcontent ▸ Lexeme.not_mem_reserved_of_digits hdigits)
      exact .digits hdigits (hcontent ▸ hpart) hlarge
    · exact .number hn
  · rw [hbad] at h
    cases h
    exact .group _

/-- What is wrong with the first item of a text that closes is a number or a group. -/
theorem isFaultOf_of_firstItem {d : Int} {c : Char} {rest : Text} {fault : LiteralFault}
    (hcloses : Closes d (c :: rest)) (h : (firstItem c rest).1 = .error fault) :
    IsFaultOf (c :: rest) fault := by
  rw [firstItem] at h
  cases hcloses with
  | escape legal _ => exact isFaultOf_of_escape legal h
  | opening _ => exact isFaultOf_of_group h
  | closing _ | quote _ _ => cases h
  | ordinary free _ =>
    obtain ⟨hescape, -, hopen, -, -⟩ := Lexeme.not_mem_reserved_iff.1 free
    rw [if_neg hescape, if_neg hopen] at h
    cases h

/-- Behind a group that denotes a character the text still closes. -/
theorem closes_group {d : Int} {rest : Text} {denoted : Char} (hcloses : Closes d rest)
    (h : ofGroup (group 0 rest).1 = .ok denoted) : ∃ d, Closes d (group 0 rest).2 := by
  rcases ofGroup_cases (group 0 rest).1 with ⟨digits, hcontent, -, hdigits⟩ | hbad
  · have hfree : ∀ c ∈ (group 0 rest).1, c ∉ reserved :=
      hcontent ▸ Lexeme.not_mem_reserved_of_digits hdigits
    rcases eq_append_of_group hfree with hrest | ⟨-, hnil⟩
    · -- the scan passes the content and then the brace that ends the group
      rw [hrest, Lexeme.closes_append_iff hfree] at hcloses
      cases hcloses with
      | closing closes => exact ⟨_, closes⟩
      | ordinary free _ => exact absurd (by decide) free
    · -- the group is not ended, and then the decoder has come to the end
      rw [hnil]
      exact ⟨0, .closed⟩
  · rw [hbad] at h
    cases h

/-- Behind an item that denotes a character the text still closes, from some depth. -/
theorem closes_firstItem {d : Int} {c : Char} {rest : Text} {denoted : Char}
    (hcloses : Closes d (c :: rest)) (h : (firstItem c rest).1 = .ok denoted) :
    ∃ d, Closes d (firstItem c rest).2 := by
  cases hcloses with
  | escape _ closes => exact ⟨d, closes⟩
  | opening closes => exact closes_group closes h
  | closing closes => exact ⟨_, closes⟩
  | quote _ closes => exact ⟨d, closes⟩
  | ordinary free closes =>
    obtain ⟨hescape, -, hopen, -, -⟩ := Lexeme.not_mem_reserved_iff.1 free
    rw [firstItem, if_neg hescape, if_neg hopen]
    exact ⟨d, closes⟩

/-! ## All items -/

/-- What is wrong with the items of a text that closes is a number or a group. -/
theorem isFaultOf_of_ofItems {d : Int} {body : Text} {fault : LiteralFault}
    (hcloses : Closes d body) (h : ofItems body = .error fault) : IsFaultOf body fault := by
  fun_induction ofItems body generalizing d with
  | case1 => cases h
  | case2 c rest item fault' =>
    rename_i hitem
    cases h
    exact isFaultOf_of_firstItem hcloses hitem
  | case3 c rest item denoted hitem =>
    rename_i ih
    obtain ⟨d, hbehind⟩ := closes_firstItem hcloses hitem
    have hfault : ofItems item.2 = .error fault := by
      rcases hitems : ofItems item.2 with fault' | characters
      · rw [hitems] at h
        exact h
      · rw [hitems] at h
        cases h
    have hpart := (suffix_of_firstItem c rest).isInfix.trans (List.suffix_cons c rest).isInfix
    exact (ih hbehind hfault).mono hpart

/-- **A string literal that was read** lacks a value only if one of its groups holds no code point,
or if a code point in it has the number of no character, which is called a bad escape sequence if it
has more than 32 bits. The text is always quoted, and its escape sequences are always legal. -/
theorem fault_of_string_literal {source : Text} {t : Token} {fault : LiteralFault}
    (ht : t ∈ source.tokens) (hkind : t.kind = .stringLiteral)
    (hfault : value t.text = .error fault) :
    IsFaultOf t.text fault ∧ (∀ u, fault ≠ .unquoted u) ∧ ∀ u, fault ≠ .badEscape ('\\' :: u) := by
  obtain ⟨body, htext, hcloses⟩ := Text.exists_closes_of_mem_tokens ht hkind
  rw [htext, value_quoted] at hfault
  have hpart : body <:+: quoted body := ⟨['"'], ['"'], rfl⟩
  have hbody := (isFaultOf_of_ofItems hcloses hfault).mono hpart
  rw [htext]
  refine ⟨hbody, ?_, ?_⟩
  · rintro u rfl
    cases hbody
  · rintro u rfl
    cases hbody with
    | digits isHexDigit _ _ => exact absurd (isHexDigit '\\' List.mem_cons_self) (by decide)

theorem fault_of_string_literal_large :
    ∃ t ∈ Text.tokens "x \"a\x7b0x100000000\x7d\"".toList, t.kind = .stringLiteral ∧
      value t.text = .error (.badEscape "100000000".toList) ∧
      IsFaultOf t.text (.badEscape "100000000".toList) := by
  have ht : (⟨.stringLiteral, "\"a\x7b0x100000000\x7d\"".toList, ⟨⟨1, 2⟩, ⟨1, 18⟩⟩⟩ : Token) ∈
      Text.tokens "x \"a\x7b0x100000000\x7d\"".toList := by decide +kernel
  have hfault : value "\"a\x7b0x100000000\x7d\"".toList =
      .error (.badEscape "100000000".toList) := by decide +kernel
  exact ⟨_, ht, rfl, hfault, (fault_of_string_literal ht rfl hfault).1⟩

end AngleLexer.StringLiteral
