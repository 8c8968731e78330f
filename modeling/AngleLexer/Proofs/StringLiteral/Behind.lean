import AngleLexer.Proofs.Lookahead
import AngleLexer.Proofs.StringLiteral.Closing

/-!
# What stands behind a string literal

The scan of a string literal ends with the closing quote, with a character that spoils an escape
sequence, in front of a line break, or where the input is over. Only in the last two cases something
behind it has ended it, and then a text that stops like that one ends it as well: a line feed is a
line break, and if the line goes on to the end of the input, the literal is as broken as before. An
escape sequence, too, ends in front of any character that is no digit. So what stands behind a
scanned literal may be replaced (`Lexeme.stringTail_replace`).
-/

namespace AngleLexer

variable {s t v : Text}

/-! ## Escape sequences -/

namespace Escape

theorem width_read_pos {t : Text} (h : t ≠ []) : 0 < (read t).width := by
  rcases t with _ | ⟨c, t⟩
  · exact absurd rfl h
  · rw [read]
    split
    · dsimp only
      split <;> exact Nat.succ_pos _
    · split <;> exact Nat.succ_pos _

/-- An escape sequence that has ended does not look at what stands behind it. -/
theorem read_replace (hs : StopsLike s t) (hne : s ≠ [])
    (h : (read (v ++ s)).width ≤ v.length) : read (v ++ t) = read (v ++ s) := by
  rcases v with _ | ⟨c, v⟩
  · exact absurd h (Nat.not_le.2 (width_read_pos hne))
  · rw [List.cons_append, read] at h
    rw [List.cons_append, List.cons_append, read, read]
    split
    · rename_i hc
      rw [if_pos hc] at h
      have hdigits : (((v ++ s).take maxDigits).takeWhile isHexDigit).length ≤ v.length := by
        dsimp only at h
        split at h <;> exact Nat.le_of_succ_le_succ h
      rw [Text.takeWhile_take_replace (hs.goesOn (by decide)) _ hdigits]
    · rfl

end Escape

namespace Lexeme

/-! ## Scans -/

/-- Two scans take equally much, and either both of them close or none does. -/
structure EndsLike (a b : StringScan) : Prop where
  /-- as many characters are taken -/
  width : a.width = b.width
  /-- the literal is closed by both or by none -/
  closed : a.finish = .closed ↔ b.finish = .closed

theorem EndsLike.widen {a b : StringScan} (h : EndsLike a b) (n : Nat) :
    EndsLike (a.widen n) (b.widen n) where
  width := congrArg (· + n) h.width
  closed := h.closed

/-- A character that is neither a backslash nor a line break does the same to the scan, whatever
follows it. -/
theorem stringTail_cons (d : Int) {c : Char} (hescape : c ≠ '\\') (hbreak : isLineBreak c = false) :
    (∃ d', ∀ rest, stringTail d (c :: rest) = (stringTail d' rest).widen 1) ∨
      ∀ rest, stringTail d (c :: rest) = ⟨.closed, 1⟩ := by
  by_cases hopen : c = '\x7b'
  · exact Or.inl ⟨d + 1, fun rest => hopen ▸ stringTail_opening d rest⟩
  by_cases hclose : c = '\x7d'
  · exact Or.inl ⟨d - 1, fun rest => hclose ▸ stringTail_closing d rest⟩
  by_cases hquote : c = '"'
  · by_cases hd : d = 0
    · exact Or.inr fun rest => by rw [hquote, stringTail_quote, if_pos hd]
    · exact Or.inl ⟨d, fun rest => by rw [hquote, stringTail_quote, if_neg hd]⟩
  · have hfree := not_mem_reserved_iff.2 ⟨hescape, hbreak, hopen, hclose, hquote⟩
    exact Or.inl ⟨d, fun rest => stringTail_ordinary hfree rest⟩

theorem stringTail_lineBreak (d : Int) {c : Char} (h : isLineBreak c = true) (rest : Text) :
    stringTail d (c :: rest) = ⟨.lineBreak, 0⟩ := by
  have hne : c ≠ '\\' := by
    rintro rfl
    cases h
  rw [stringTail, if_neg hne, if_pos h]

/-- A sequence that is none ends the scan so many characters behind the backslash, or where the
input is over. -/
theorem stringTail_of_not_isLegal {e : Escape} (h : e.isLegal = false) (d : Int) :
    ∃ n, e.width ≤ n ∧ ∀ rest, Escape.read rest = e →
      (stringTail d ('\\' :: rest)).finish ≠ .closed ∧
        (stringTail d ('\\' :: rest)).width = min n rest.length + 1 := by
  cases e with
  | simple _ | codePoint _ => cases h
  | shortCodePoint digits =>
    refine ⟨digits.length + 2, Nat.le_succ _, fun rest hread => ?_⟩
    rw [stringTail, if_pos rfl, hread]
    refine ⟨?_, rfl⟩
    dsimp only
    split <;> exact StringEnd.noConfusion
  | unknown c =>
    refine ⟨1, Nat.le_refl _, fun rest hread => ?_⟩
    have hlength := Escape.width_read_le rest
    rw [hread, Escape.width] at hlength
    rw [stringTail, if_pos rfl, hread, Nat.min_eq_left hlength]
    exact ⟨StringEnd.noConfusion, rfl⟩
  | missing =>
    refine ⟨0, Nat.le_refl _, fun rest hread => ?_⟩
    rw [stringTail, if_pos rfl, hread, Nat.zero_min]
    exact ⟨StringEnd.noConfusion, rfl⟩

/-- A scan does not reach beyond the text. -/
theorem width_stringTail_le (d : Int) (t : Text) : (stringTail d t).width ≤ t.length := by
  fun_induction stringTail d t with
  | case1 d => exact Nat.le_refl 0
  | case2 d rest escape _ _ ih | case3 d rest escape _ _ ih =>
    have hescape : escape.width ≤ rest.length := Escape.width_read_le rest
    rw [List.length_drop] at ih
    change _ + (_ + 1) ≤ rest.length + 1
    omega
  | case4 d rest => exact Nat.succ_le_succ (Nat.min_le_right _ _)
  | case5 d rest => exact Nat.succ_le_succ (Escape.width_read_le rest)
  | case6 d rest => exact Nat.succ_le_succ (Nat.zero_le _)
  | case7 d => exact Nat.zero_le _
  | case8 d rest _ _ ih | case9 d rest _ _ _ ih => exact Nat.succ_le_succ ih
  | case10 d => exact Nat.succ_le_succ (Nat.zero_le _)
  | case11 d c rest _ _ _ _ _ ih => exact Nat.succ_le_succ ih

theorem isLineBreak_of_width_eq_zero {d : Int} {c : Char} {rest : Text}
    (h : (stringTail d (c :: rest)).width = 0) : isLineBreak c = true := by
  by_contra hbreak
  by_cases hescape : c = '\\'
  · subst hescape
    rcases hlegal : (Escape.read rest).isLegal with _ | _
    · obtain ⟨n, -, hn⟩ := stringTail_of_not_isLegal hlegal d
      rw [(hn rest rfl).2] at h
      cases h
    · rw [stringTail_escape hlegal] at h
      cases h
  · rcases stringTail_cons d hescape (Bool.not_eq_true _ ▸ hbreak) with ⟨d', hstep⟩ | hstep
    · rw [hstep] at h
      cases h
    · rw [hstep] at h
      cases h

/-- A scan that takes nothing stands in front of a line break, and then the other text begins with
one as well, or it is the end of the input. -/
theorem endsLike_of_width_eq_zero {d : Int} (hs : StopsLike s t) (hne : s ≠ [])
    (h : (stringTail d s).width = 0) : EndsLike (stringTail d t) (stringTail d s) := by
  rcases s with _ | ⟨c, s⟩
  · exact absurd rfl hne
  have hbreak := isLineBreak_of_width_eq_zero h
  rw [stringTail_lineBreak d hbreak]
  rcases t with _ | ⟨b, t⟩
  · rw [stringTail]
    exact ⟨rfl, by decide⟩
  · have hb : isLineBreak b = true := by
      rcases hs.head? rfl with rfl | hhead
      · rfl
      · exact Option.some.inj hhead ▸ hbreak
    rw [stringTail_lineBreak d hb]
    exact ⟨rfl, Iff.rfl⟩

/-- A scan that is spoilt in front of a text is spoilt all the same. -/
theorem endsLike_of_not_isLegal {d : Int} (hs : StopsLike s t) (hne : s ≠ [])
    (hlegal : (Escape.read (v ++ s)).isLegal = false)
    (h : (stringTail d ('\\' :: (v ++ s))).width = v.length + 1) :
    EndsLike (stringTail d ('\\' :: (v ++ t))) (stringTail d ('\\' :: (v ++ s))) := by
  obtain ⟨n, hwidth, hspoilt⟩ := stringTail_of_not_isLegal hlegal d
  obtain ⟨hopen, hmin⟩ := hspoilt (v ++ s) rfl
  have hpos := List.length_pos_iff.2 hne
  rw [hmin, List.length_append] at h
  obtain rfl : n = v.length := by omega
  obtain ⟨hopen', hmin'⟩ := hspoilt (v ++ t) (Escape.read_replace hs hne hwidth)
  refine ⟨?_, iff_of_false hopen' hopen⟩
  rw [hmin', hmin, List.length_append, List.length_append]
  omega

/-- **A scan that ends in front of a text** ends in front of another one that stops alike. -/
theorem stringTail_replace {d : Int} (hs : StopsLike s t) (hne : s ≠ [])
    (h : (stringTail d (v ++ s)).width = v.length) :
    EndsLike (stringTail d (v ++ t)) (stringTail d (v ++ s)) := by
  induction hlength : v.length using Nat.strongRecOn generalizing v d with
  | _ n ih =>
  subst hlength
  rcases v with _ | ⟨c, v⟩
  · exact endsLike_of_width_eq_zero hs hne h
  rw [List.cons_append] at h ⊢
  rw [List.cons_append]
  by_cases hescape : c = '\\'
  · subst hescape
    rcases hlegal : (Escape.read (v ++ s)).isLegal with _ | _
    · exact endsLike_of_not_isLegal hs hne hlegal h
    · rw [stringTail_escape hlegal] at h ⊢
      have hwidth : _ + (_ + 1) = v.length + 1 := h
      have hle : (Escape.read (v ++ s)).width ≤ v.length := by omega
      have hread := Escape.read_replace hs hne hle
      rw [stringTail_escape (hread.symm ▸ hlegal), hread, List.drop_append_of_le_length hle,
        List.drop_append_of_le_length hle]
      rw [List.drop_append_of_le_length hle] at hwidth
      refine EndsLike.widen (ih _ ?_ ?_ rfl) _
      · rw [List.length_drop, List.length_cons]
        omega
      · rw [List.length_drop]
        omega
  rcases hbreak : isLineBreak c with _ | _
  · rcases stringTail_cons d hescape hbreak with ⟨d', hstep⟩ | hstep
    · rw [hstep] at h ⊢
      rw [hstep]
      exact EndsLike.widen (ih _ (Nat.lt_succ_self _) (Nat.succ.inj h) rfl) 1
    · rw [hstep, hstep]
      exact ⟨rfl, Iff.rfl⟩
  · rw [stringTail_lineBreak d hbreak] at h
    cases h

theorem string_replace (hs : StopsLike s t) (hne : s ≠ [])
    (h : (string (v ++ s)).width = v.length + 1) : string (v ++ t) = string (v ++ s) := by
  have hends := stringTail_replace hs hne (Nat.succ.inj h)
  have hfinish : (stringLiteral (v ++ t)).finish = .closed ↔ (stringLiteral (v ++ s)).finish = .closed :=
    hends.closed
  have hwidth : (stringLiteral (v ++ t)).width = (stringLiteral (v ++ s)).width :=
    congrArg (· + 1) hends.width
  rw [string, string, hwidth]
  simp only [hfinish]

end Lexeme

end AngleLexer
