import AngleLexer.Proofs.StringLiteral.Written

/-!
# Which texts have a value

What stands between the quotes of a literal is a sequence of items, and each of them denotes a
character (`StringLiteral.IsItem`). The decoder was told nothing about the scan that made the
literal: it answers for every text. Step by step it agrees with the items,

* an item is what it takes first (`IsItem.exists_firstItem`), and
* what it takes first, if that denotes a character, is an item (`exists_isItem`),

with one exception. A group ends with its closing brace, but the decoder lets the end of the literal
end it as well, so `"\x7b0x41"` has a value. The exception can only come last, and then the literal
is not a sequence of items in any other way (`not_denotes_of_isOpenGroup`). So a text has a value
exactly if it is quoted and there are items between its quotes, the last of which may be a group
that was left open (`StringLiteral.value_eq_ok_iff`).
-/

namespace AngleLexer.StringLiteral

open Lexeme (quoted)

/-! ## The grammar -/

/-- One item, the character that it denotes, and the text behind it. What is behind matters only to
the number of a code point without a group, which takes a fifth digit if there is one. -/
inductive IsItem : Text → Char → Text → Prop
  /-- a character that starts neither a sequence nor a group -/
  | self {c : Char} {behind : Text} (noEscape : c ≠ '\\') (noGroup : c ≠ '\x7b') :
    IsItem [c] c behind
  /-- a backslash and a character that makes an escape sequence -/
  | mark {m c : Char} {behind : Text} (listed : (m, c) ∈ Escape.marks) : IsItem ['\\', m] c behind
  /-- a backslash, the letter `u` and five digits, or four if there is no fifth -/
  | codePoint {number : CodePoint} {behind : Text}
    (length : number.digits.length = 5 ∨
      number.digits.length = 4 ∧ ∀ d ∈ behind.head?, isHexDigit d = false) :
    IsItem ('\\' :: 'u' :: number.digits) number.denoted behind
  /-- a group with a number of any length -/
  | group {number : CodePoint} {behind : Text} :
    IsItem ('\x7b' :: '0' :: 'x' :: (number.digits ++ ['\x7d'])) number.denoted behind

/-- Items one after the other and an ending behind them, and what all of them denote. -/
inductive Denotes (IsEnding : Text → Text → Prop) : Text → Text → Prop
  /-- the ending -/
  | ending {t s : Text} (isEnding : IsEnding t s) : Denotes IsEnding t s
  /-- an item in front of others -/
  | item {x t s : Text} {c : Char} (isItem : IsItem x c t) (items : Denotes IsEnding t s) :
    Denotes IsEnding (x ++ t) (c :: s)

/-- Nothing is left behind the last item. -/
inductive IsEnd : Text → Text → Prop
  /-- no text, which denotes nothing -/
  | nil : IsEnd [] []

/-- What is left is a group without its closing brace. -/
inductive IsOpenGroup : Text → Text → Prop
  /-- an opening brace and the number of a character -/
  | mk (number : CodePoint) : IsOpenGroup ('\x7b' :: '0' :: 'x' :: number.digits) [number.denoted]

/-! ## From items to what is taken -/

/-- A group that is never closed reaches to the end. -/
theorem group_eq_self {content : Text} (h : ∀ c ∈ content, c ∉ Lexeme.reserved) :
    group 0 content = (content, []) := by
  induction content with
  | nil => rfl
  | cons c content ih =>
    obtain ⟨hc, hcontent⟩ := List.forall_mem_cons.1 h
    obtain ⟨-, -, hopen, hclose, -⟩ := Lexeme.not_mem_reserved_iff.1 hc
    rw [group, if_neg hclose, if_neg hopen, ih hcontent]
    rfl

theorem firstItem_escape_append {s t : Text} {e : Escape} (hread : Escape.read (s ++ t) = e)
    (hwidth : e.width = s.length) : firstItem '\\' (s ++ t) = (ofEscape e, t) := by
  rw [firstItem, if_pos rfl, hread]
  dsimp only
  rw [hwidth, List.drop_left]

theorem firstItem_group (rest : Text) :
    firstItem '\x7b' rest = (ofGroup (group 0 rest).1, (group 0 rest).2) := rfl

/-- **An item is what the decoder takes first**, and it denotes its character. -/
theorem IsItem.exists_firstItem {x t : Text} {c : Char} (h : IsItem x c t) :
    ∃ a rest, x ++ t = a :: rest ∧ firstItem a rest = (.ok c, t) := by
  cases h with
  | self noEscape noGroup => exact ⟨c, t, rfl, by rw [firstItem, if_neg noEscape, if_neg noGroup]⟩
  | @mark m _ _ listed =>
    exact ⟨'\\', m :: t, rfl, firstItem_escape_append (s := [m]) (Escape.read_mark listed t) rfl⟩
  | @codePoint number _ length =>
    have hlength : number.digits.length = 4 ∨ number.digits.length = 5 := by omega
    have hfits : (Item.codePoint number hlength).FitsBefore t :=
      fun hfour => (length.resolve_left (by omega)).2
    refine ⟨'\\', 'u' :: (number.digits ++ t), rfl, ?_⟩
    rw [← number.numbered_digits]
    exact firstItem_escape_append (s := 'u' :: number.digits) (Item.read_codePoint hfits) rfl
  | @group number _ =>
    have hgroup := group_append (Lexeme.not_mem_reserved_of_digits number.isHexDigit) t
    refine ⟨'\x7b', '0' :: 'x' :: (number.digits ++ '\x7d' :: t), by simp, ?_⟩
    rw [List.cons_append, List.cons_append] at hgroup
    rw [firstItem_group, hgroup, ofGroup_digits number.ne_nil number.isHexDigit,
      number.numbered_digits]

theorem IsOpenGroup.exists_firstItem {t s : Text} (h : IsOpenGroup t s) :
    ∃ a rest c, t = a :: rest ∧ s = [c] ∧ firstItem a rest = (.ok c, []) := by
  obtain ⟨number⟩ := h
  refine ⟨'\x7b', '0' :: 'x' :: number.digits, number.denoted, rfl, rfl, ?_⟩
  rw [firstItem_group, group_eq_self (Lexeme.not_mem_reserved_of_digits number.isHexDigit),
    ofGroup_digits number.ne_nil number.isHexDigit, number.numbered_digits]

/-! ## From what is taken to items -/

/-- Digits that denote a character are its number. -/
theorem exists_codePoint_of_numbered {digits : Text} {c : Char} (hne : digits ≠ [])
    (hdigits : ∀ d ∈ digits, isHexDigit d = true) (h : numbered digits = .ok c) :
    ∃ number : CodePoint, number.digits = digits ∧ number.denoted = c := by
  rw [numbered_eq hne hdigits] at h
  by_cases hlarge : numberLimit ≤ Radix.hexadecimal.valueOf digits
  · rw [if_pos hlarge] at h
    cases h
  · rw [if_neg hlarge] at h
    by_cases hvalid : (Radix.hexadecimal.valueOf digits).isValidChar
    · rw [dif_pos hvalid] at h
      cases h
      exact ⟨⟨digits, _, hne, hdigits, rfl⟩, rfl, rfl⟩
    · rw [dif_neg hvalid] at h
      cases h

theorem exists_isItem_of_escape {rest : Text} {c : Char} (h : ofEscape (Escape.read rest) = .ok c) :
    ∃ x, '\\' :: rest = x ++ rest.drop (Escape.read rest).width ∧
      IsItem x c (rest.drop (Escape.read rest).width) := by
  rcases hread : Escape.read rest with denoted | digits | digits | d | _
  · rw [hread] at h
    cases h
    obtain ⟨mark, behind, rfl, hmark⟩ := Escape.exists_mark_of_read_simple hread
    exact ⟨['\\', mark], rfl, .mark hmark⟩
  · rw [hread] at h
    obtain ⟨⟨behind, rfl⟩, hdigits, hmin, hmax⟩ := Escape.eq_append_of_read_codePoint hread
    have hne : digits ≠ [] := List.length_pos_iff.1 (Nat.lt_of_lt_of_le (by decide) hmin)
    obtain ⟨number, rfl, rfl⟩ := exists_codePoint_of_numbered hne hdigits h
    have hdrop : List.drop (Escape.codePoint number.digits).width ('u' :: (number.digits ++ behind)) =
        behind := List.drop_left
    rw [hdrop]
    refine ⟨'\\' :: 'u' :: number.digits, rfl, .codePoint ?_⟩
    rcases Nat.lt_or_eq_of_le hmax with hlt | hfive
    · have hfour := Nat.le_antisymm (Nat.le_of_lt_succ hlt) hmin
      exact Or.inr ⟨hfour, Escape.isHexDigit_head?_of_read_codePoint hread hlt⟩
    · exact Or.inl hfive
  all_goals
    rw [hread] at h
    cases h

theorem exists_isItem_of_group {rest : Text} {c : Char} (h : ofGroup (group 0 rest).1 = .ok c) :
    (∃ x, '\x7b' :: rest = x ++ (group 0 rest).2 ∧ IsItem x c (group 0 rest).2) ∨
      IsOpenGroup ('\x7b' :: rest) [c] ∧ (group 0 rest).2 = [] := by
  rcases ofGroup_cases (group 0 rest).1 with ⟨digits, hcontent, hne, hdigits⟩ | hbad
  · rw [hcontent, ofGroup_digits hne hdigits] at h
    obtain ⟨number, rfl, rfl⟩ := exists_codePoint_of_numbered hne hdigits h
    rcases eq_append_of_group (hcontent ▸ Lexeme.not_mem_reserved_of_digits hdigits) with
      hrest | ⟨hrest, hnil⟩
    · rw [hcontent] at hrest
      exact Or.inl ⟨_, by simpa using hrest, IsItem.group⟩
    · refine Or.inr ⟨?_, hnil⟩
      rw [hrest, hcontent]
      exact .mk number
  · rw [hbad] at h
    cases h

/-- **What the decoder takes first is an item**, if it denotes a character, or a group that is still
open where the text ends. -/
theorem exists_isItem {c denoted : Char} {rest : Text} (h : (firstItem c rest).1 = .ok denoted) :
    (∃ x, c :: rest = x ++ (firstItem c rest).2 ∧ IsItem x denoted (firstItem c rest).2) ∨
      IsOpenGroup (c :: rest) [denoted] ∧ (firstItem c rest).2 = [] := by
  by_cases hescape : c = '\\'
  · subst hescape
    exact Or.inl (exists_isItem_of_escape h)
  by_cases hopen : c = '\x7b'
  · subst hopen
    exact exists_isItem_of_group h
  · rw [firstItem, if_neg hescape, if_neg hopen] at h ⊢
    cases h
    exact Or.inl ⟨[c], rfl, .self hescape hopen⟩

/-! ## All items -/

/-- The decoder finds what items denote, whatever they end with. -/
theorem Denotes.ofItems_eq {IsEnding : Text → Text → Prop}
    (hending : ∀ t s, IsEnding t s → ofItems t = .ok s) {t s : Text} (h : Denotes IsEnding t s) :
    ofItems t = .ok s := by
  induction h with
  | ending isEnding => exact hending _ _ isEnding
  | item isItem _ ih =>
    obtain ⟨a, rest, hsplit, hfirst⟩ := isItem.exists_firstItem
    rw [hsplit, ofItems_cons, hfirst]
    change Except.map _ (ofItems _) = _
    rw [ih]
    rfl

theorem IsEnd.ofItems_eq {t s : Text} (h : IsEnd t s) : ofItems t = .ok s := by
  cases h
  exact ofItems_nil

theorem IsOpenGroup.ofItems_eq {t s : Text} (h : IsOpenGroup t s) : ofItems t = .ok s := by
  obtain ⟨a, rest, c, rfl, rfl, hfirst⟩ := h.exists_firstItem
  rw [ofItems_cons, hfirst]
  change Except.map _ (ofItems []) = _
  rw [ofItems_nil]
  rfl

/-- It finds something only where there are items. -/
theorem denotes_of_ofItems {t s : Text} (h : ofItems t = .ok s) :
    Denotes IsEnd t s ∨ Denotes IsOpenGroup t s := by
  fun_induction ofItems t generalizing s with
  | case1 =>
    cases h
    exact Or.inl (.ending .nil)
  | case2 => cases h
  | case3 c rest item denoted hitem =>
    rename_i ih
    rcases hbehind : ofItems item.2 with fault | characters
    · rw [hbehind] at h
      cases h
    · rw [hbehind] at h
      cases h
      rcases exists_isItem hitem with ⟨x, hx, hisItem⟩ | ⟨hopen, hnil⟩
      · rw [hx]
        exact (ih hbehind).imp (.item hisItem) (.item hisItem)
      · -- the open group has taken all of the text, so nothing more is denoted
        change item.2 = [] at hnil
        rw [hnil, ofItems_nil] at hbehind
        cases hbehind
        exact Or.inr (.ending hopen)

/-! ## One reading only -/

theorem Denotes.cases {IsEnding : Text → Text → Prop} {t s : Text} (h : Denotes IsEnding t s) :
    IsEnding t s ∨ ∃ x c t' s', t = x ++ t' ∧ IsItem x c t' ∧ Denotes IsEnding t' s' := by
  cases h with
  | ending isEnding => exact Or.inl isEnding
  | item isItem items => exact Or.inr ⟨_, _, _, _, rfl, isItem, items⟩

/-- An item and what is behind it can be told apart in one way only. -/
theorem IsItem.unique {x x' t t' : Text} {c c' : Char} (h : IsItem x c t) (h' : IsItem x' c' t')
    (happend : x ++ t = x' ++ t') : x = x' ∧ t = t' := by
  obtain ⟨a, rest, hsplit, hfirst⟩ := h.exists_firstItem
  obtain ⟨a', rest', hsplit', hfirst'⟩ := h'.exists_firstItem
  obtain ⟨rfl, rfl⟩ := List.cons.inj (hsplit.symm.trans (happend.trans hsplit'))
  obtain rfl : t = t' := congrArg Prod.snd (hfirst.symm.trans hfirst')
  exact ⟨List.append_cancel_right happend, rfl⟩

theorem IsOpenGroup.exists_eq {t s : Text} (h : IsOpenGroup t s) :
    ∃ number : CodePoint, t = '\x7b' :: '0' :: 'x' :: number.digits := by
  obtain ⟨number⟩ := h
  exact ⟨number, rfl⟩

/-- An open group is no item. -/
theorem IsItem.not_isOpenGroup {x t s : Text} {c : Char} (h : IsItem x c t) :
    ¬ IsOpenGroup (x ++ t) s := by
  intro hopen
  -- both take all of the text
  obtain ⟨a, rest, hsplit, hfirst⟩ := h.exists_firstItem
  obtain ⟨b, rest', d, hsplit', -, hfirst'⟩ := hopen.exists_firstItem
  obtain ⟨rfl, rfl⟩ := List.cons.inj (hsplit.symm.trans hsplit')
  obtain rfl : t = [] := congrArg Prod.snd (hfirst.symm.trans hfirst')
  obtain ⟨number, htext⟩ := hopen.exists_eq
  rw [List.append_nil] at htext
  cases h with
  | self _ noGroup => exact noGroup (List.cons.inj htext).1
  | mark _ | codePoint _ => exact absurd (List.cons.inj htext).1 (by decide)
  | @group closed _ =>
    -- the closing brace of the item would be a digit of the open group
    have htail := (List.cons.inj (List.cons.inj (List.cons.inj htext).2).2).2
    have hbrace : '\x7d' ∈ number.digits := htail ▸ List.mem_append_right _ List.mem_cons_self
    exact absurd (number.isHexDigit _ hbrace) (by decide)

/-- **A text that ends in an open group is not a sequence of items.** -/
theorem not_denotes_of_isOpenGroup {t s : Text} (h : Denotes IsOpenGroup t s) (s' : Text) :
    ¬ Denotes IsEnd t s' := by
  intro hitems
  induction h generalizing s' with
  | ending hopen =>
    rcases hitems.cases with hend | ⟨x, c, rest, s'', rfl, isItem, -⟩
    · cases hend
      cases hopen
    · exact isItem.not_isOpenGroup hopen
  | @item x t _ _ isItem _ ih =>
    rcases hitems.cases with hend | ⟨x', c', rest, s'', happend, isItem', items'⟩
    · obtain ⟨a, rest, hsplit, -⟩ := isItem.exists_firstItem
      rw [hsplit] at hend
      cases hend
    · obtain ⟨-, rfl⟩ := isItem.unique isItem' happend
      exact ih _ items'

/-! ## Literals -/

theorem unquote?_eq_some_iff {t body : Text} : unquote? t = some body ↔ t = quoted body := by
  constructor
  · intro h
    unfold unquote? at h
    split at h
    · split at h
      · rename_i hlast
        cases h
        rw [quoted, List.dropLast_append_getLast? _ hlast]
      · cases h
    · cases h
  · rintro rfl
    rw [quoted, unquote?, if_pos List.getLast?_concat, List.dropLast_concat]

theorem value_eq_ok_iff_exists {t s : Text} :
    value t = .ok s ↔ ∃ body, t = quoted body ∧ ofItems body = .ok s := by
  rw [value]
  constructor
  · intro h
    rcases hbody : unquote? t with _ | body
    · rw [hbody] at h
      cases h
    · rw [hbody] at h
      exact ⟨body, unquote?_eq_some_iff.1 hbody, h⟩
  · rintro ⟨body, hbody, h⟩
    rw [unquote?_eq_some_iff.2 hbody]
    exact h

theorem ofItems_eq_ok_iff {t s : Text} :
    ofItems t = .ok s ↔ Denotes IsEnd t s ∨ Denotes IsOpenGroup t s := by
  refine ⟨denotes_of_ofItems, fun h => ?_⟩
  rcases h with items | items
  · exact items.ofItems_eq fun _ _ => IsEnd.ofItems_eq
  · exact items.ofItems_eq fun _ _ => IsOpenGroup.ofItems_eq

/-- **Which texts have a value.** A text has a value exactly if it is quoted and what is between its
quotes is a sequence of items, or complete items and then a group with a number that is left open;
the value is what they denote. What ends in an open group is not a sequence of items as well. -/
theorem value_eq_ok_iff (t s : Text) :
    (value t = .ok s ↔
      ∃ body, t = quoted body ∧ (Denotes IsEnd body s ∨ Denotes IsOpenGroup body s)) ∧
    ∀ body, Denotes IsOpenGroup body s → ∀ s', ¬ Denotes IsEnd body s' := by
  refine ⟨?_, fun _ => not_denotes_of_isOpenGroup⟩
  rw [value_eq_ok_iff_exists]
  exact exists_congr fun body => and_congr_right fun _ => ofItems_eq_ok_iff

/-- A group that is never closed has a value, although nothing between the quotes is an item. -/
theorem value_open_group :
    value "\"\x7b0x41\"".toList = .ok ['A'] ∧
    ∀ body s, "\"\x7b0x41\"".toList = quoted body → ¬ Denotes IsEnd body s := by
  have hdigits : (['4', '1'] : Text).all isHexDigit = true := by decide
  let number : CodePoint := ⟨['4', '1'], 'A', by decide, List.all_eq_true.1 hdigits, by decide⟩
  have hquoted : "\"\x7b0x41\"".toList = quoted ['\x7b', '0', 'x', '4', '1'] := by decide
  have hopen : Denotes IsOpenGroup ['\x7b', '0', 'x', '4', '1'] ['A'] := .ending (.mk number)
  rw [hquoted]
  refine ⟨value_eq_ok_iff_exists.2 ⟨_, rfl, ofItems_eq_ok_iff.2 (Or.inr hopen)⟩, ?_⟩
  intro body s hbody
  obtain rfl : body = ['\x7b', '0', 'x', '4', '1'] :=
    List.append_cancel_right (List.cons.inj hbody).2.symm
  exact not_denotes_of_isOpenGroup hopen s

end AngleLexer.StringLiteral
