import AngleLexer.Escape

/-!
# Escape sequences and what stands behind them

Where an escape sequence ends is seen from the text behind the backslash, and of that text only so
much matters as a sequence can take. So a character that is no digit of base sixteen ends it, and
what stands behind that character is never looked at (`Escape.read_append`). The sequences of a
single character are listed in `Escape.marks`.
-/

namespace AngleLexer.Escape

/-- The sequences that denote a character, or would if the number of the character were one. -/
def isLegal : Escape → Bool
  | simple _ | codePoint _ => true
  | shortCodePoint _ | unknown _ | missing => false

/-- The characters that make a sequence of their own, each with the character it stands for. -/
def marks : List (Char × Char) :=
  [('\\', '\\'), ('"', '"'), ('n', '\n'), ('r', '\r'), ('v', '\x0b'), ('f', '\x0c'), ('t', '\t'),
   ('\x7b', '\x7b'), ('\x7d', '\x7d')]

/-! ## Reading a sequence -/

theorem read_mark {mark denoted : Char} (h : (mark, denoted) ∈ marks) (t : Text) :
    read (mark :: t) = simple denoted := by
  have hall : ∀ m ∈ marks, m.1 ≠ 'u' ∧ simple? m.1 = some m.2 := by decide
  obtain ⟨hu, hsimple⟩ := hall _ h
  rw [read, if_neg hu, hsimple]

/-- A code point takes the digits in front of a character that is none, but never a sixth. -/
theorem takeWhile_take_digits {digits t : Text} (hdigits : ∀ c ∈ digits, isHexDigit c = true)
    (hle : digits.length ≤ maxDigits)
    (hstop : digits.length < maxDigits → ∀ c ∈ t.head?, isHexDigit c = false) :
    ((digits ++ t).take maxDigits).takeWhile isHexDigit = digits := by
  rw [List.take_append, List.take_of_length_le hle, List.takeWhile_append_of_pos hdigits]
  rcases Nat.lt_or_ge digits.length maxDigits with hlt | hge
  · rcases t with _ | ⟨c, t⟩
    · simp
    · obtain ⟨n, hn⟩ := Nat.exists_eq_add_of_lt hlt
      have hc : isHexDigit c = false := hstop hlt c rfl
      simp [hn, Nat.add_assoc, hc]
  · simp [Nat.sub_eq_zero_of_le hge]

theorem read_codePoint {digits t : Text} (hdigits : ∀ c ∈ digits, isHexDigit c = true)
    (hmin : minDigits ≤ digits.length) (hmax : digits.length ≤ maxDigits)
    (hstop : digits.length < maxDigits → ∀ c ∈ t.head?, isHexDigit c = false) :
    read ('u' :: (digits ++ t)) = codePoint digits := by
  rw [read, if_pos rfl, takeWhile_take_digits hdigits hmax hstop]
  exact if_neg (Nat.not_lt.2 hmin)

/-- A code point that was read consists of the mark and of four or five digits. -/
theorem eq_append_of_read_codePoint {t digits : Text} (h : read t = codePoint digits) :
    (∃ rest, t = 'u' :: (digits ++ rest)) ∧ (∀ c ∈ digits, isHexDigit c = true) ∧
      minDigits ≤ digits.length ∧ digits.length ≤ maxDigits := by
  rcases t with _ | ⟨c, t⟩
  · cases h
  · rw [read] at h
    split at h
    · rename_i hc
      dsimp only at h
      split at h
      · cases h
      · rename_i hmin
        obtain rfl := codePoint.inj h
        have hprefix : (t.take maxDigits).takeWhile isHexDigit <+: t :=
          (List.takeWhile_prefix _).trans (List.take_prefix _ _)
        refine ⟨?_, ?_, Nat.not_lt.1 hmin, ?_⟩
        · obtain ⟨rest, hrest⟩ := hprefix
          exact ⟨rest, by rw [hrest, hc]⟩
        · intro d hd
          exact List.all_eq_true.1 List.all_takeWhile d hd
        · exact Nat.le_trans (List.takeWhile_prefix _).length_le (List.length_take_le _ _)
    · split at h <;> cases h

/-- It has taken all the digits that it can. -/
theorem isHexDigit_head?_of_read_codePoint {digits behind : Text}
    (h : read ('u' :: (digits ++ behind)) = codePoint digits) (hlt : digits.length < maxDigits) :
    ∀ c ∈ behind.head?, isHexDigit c = false := by
  intro c hc
  obtain ⟨behind, rfl⟩ := List.head?_eq_some_iff.1 hc
  obtain ⟨-, hdigits, -, -⟩ := eq_append_of_read_codePoint h
  refine Bool.not_eq_true _ ▸ fun hhex => ?_
  have hmore : ∀ d ∈ digits ++ [c], isHexDigit d = true :=
    List.forall_mem_append.2 ⟨hdigits, List.forall_mem_singleton.2 hhex⟩
  -- one more digit stands among those that may be taken
  obtain ⟨seen, hseen⟩ : digits ++ [c] <+: (digits ++ c :: behind).take maxDigits :=
    List.prefix_take_iff.2 ⟨⟨behind, by simp⟩, by simpa using Nat.succ_le_of_lt hlt⟩
  rw [read, if_pos rfl, ← hseen, List.takeWhile_append_of_pos hmore] at h
  dsimp only at h
  split at h
  · cases h
  · have hlength := congrArg List.length (codePoint.inj h)
    simp at hlength

/-- A sequence of a single character is one of those that are listed. -/
theorem exists_mark_of_read_simple {t : Text} {denoted : Char} (h : read t = simple denoted) :
    ∃ mark rest, t = mark :: rest ∧ (mark, denoted) ∈ marks := by
  rcases t with _ | ⟨c, t⟩
  · cases h
  · rw [read] at h
    split at h
    · dsimp only at h
      split at h <;> cases h
    · split at h
      · rename_i hsimple
        obtain rfl := simple.inj h
        refine ⟨c, t, rfl, ?_⟩
        unfold simple? at hsimple
        split at hsimple
        · rename_i hc
          obtain rfl := Option.some.inj hsimple
          rcases hc with rfl | rfl | rfl | rfl <;> decide
        · grind [marks]
      · cases h

/-! ## What stands behind a sequence -/

/-- Only the digits in front of a character that is none are looked at. -/
theorem takeWhile_take_append {c : Char} (hc : isHexDigit c = false) (n : Nat) (s t : Text) :
    ((s ++ c :: t).take n).takeWhile isHexDigit = (s.take n).takeWhile isHexDigit := by
  induction s generalizing n with
  | nil => rcases n with _ | n <;> simp [hc]
  | cons d s ih =>
    rcases n with _ | n
    · rfl
    · simp only [List.cons_append, List.take_succ_cons, List.takeWhile_cons, ih]

/-- **A sequence that has begun** does not depend on what follows a character that is no digit. -/
theorem read_append {c : Char} (hc : isHexDigit c = false) {s : Text} (hs : s ≠ []) (t : Text) :
    read (s ++ c :: t) = read s := by
  rcases s with _ | ⟨d, s⟩
  · exact absurd rfl hs
  · rw [List.cons_append, read, read, takeWhile_take_append hc]

/-- A legal sequence is not empty. -/
theorem width_pos_of_isLegal {e : Escape} (h : e.isLegal = true) : 0 < e.width := by
  cases e with
  | simple _ | codePoint _ => exact Nat.succ_pos _
  | shortCodePoint _ | unknown _ | missing => cases h

/-- If what a legal sequence leaves comes to a character that is no digit, the sequence stands in
front of that character. -/
theorem exists_append_of_drop {c : Char} (hc : isHexDigit c = false) {t s u : Text}
    (hlegal : (read t).isLegal = true) (hdrop : t.drop (read t).width = s ++ c :: u) :
    ∃ body, t = body ++ c :: u ∧ read body = read t ∧ body.drop (read t).width = s := by
  have hsplit : t = t.take (read t).width ++ s ++ c :: u := by
    rw [List.append_assoc, ← hdrop, List.take_append_drop]
  have hlength : (t.take (read t).width).length = (read t).width :=
    List.length_take_of_le (width_read_le t)
  have hne : t.take (read t).width ++ s ≠ [] := by
    intro hnil
    have hpos := width_pos_of_isLegal hlegal
    rw [← hlength, (List.append_eq_nil_iff.1 hnil).1] at hpos
    cases hpos
  refine ⟨t.take (read t).width ++ s, hsplit, ?_, List.drop_left' hlength⟩
  rw [← read_append hc hne u, ← hsplit]

end AngleLexer.Escape
