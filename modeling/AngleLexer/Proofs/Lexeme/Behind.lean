import AngleLexer.Proofs.Lexeme.Delimited
import AngleLexer.Proofs.LongestPrefix
import AngleLexer.Proofs.Number.Extent
import AngleLexer.Proofs.StringLiteral.Behind
import Mathlib.Data.List.Nodup

/-!
# What stands behind a lexeme

Where a lexeme ends depends on what stands behind it, but only a little: if another text stops like
that one (`StopsLike`), it may stand there instead, and the lexeme is the same
(`Lexeme.ofText?_replace`). Each rule has its own reason.

* A run of characters goes on only with a character that belongs to it, and but for white space no
  run goes on with a line feed (`Text.takeWhile_replace`).
* A symbol or the mark of a comment is no longer than what can be seen behind a lexeme
  (`StopsLike.prefix_append`), and a longer number is approached in small steps
  (`LongestPrefix.replace`).
* What has an end mark of its own does not depend on what follows it (`Lexeme.Finds.replace`). A
  string literal that is broken off ends where its line ends, or with the character that spoils it,
  and a line feed or the end of the input also ends the line (`Lexeme.stringTail_replace`).
* What is invalid to the end of the input has nothing behind it.
-/

namespace AngleLexer

/-! ## Spellings -/

namespace Symbol

/-- A spelling belongs to one symbol only. -/
theorem text_inj {a b : Symbol} (h : a.text = b.text) : a = b :=
  List.inj_on_of_nodup_map (f := text) (by decide) a.mem_all b.mem_all h

theorem isPrefix_of_atStart? {t : Text} {a : Symbol} (h : atStart? t = some a) : a.text <+: t :=
  List.isPrefixOf_iff_prefix.1 (List.find?_eq_some_iff_append.1 h).1

theorem length_text_le (a : Symbol) : a.text.length ≤ lookahead := by
  cases a <;> decide

theorem lineFeed_not_mem (a : Symbol) : '\n' ∉ a.text := by
  cases a <;> decide

end Symbol

namespace Lexeme

variable {s t v : Text}

/-! ## Comments -/

/-- A comment has one of two opening marks. -/
theorem comment?_eq_none_iff : comment? t = none ↔ ¬ ['/', '/'] <+: t ∧ ¬ ['/', '*'] <+: t := by
  unfold comment?
  split
  · simp
  · split <;> simp
  · rename_i hline hblock
    refine iff_of_true rfl ⟨?_, ?_⟩
    · rintro ⟨rest, rfl⟩
      exact hline rest rfl
    · rintro ⟨rest, rfl⟩
      exact hblock rest rfl

theorem comment?_replace_none (hs : StopsLike s t) (h : comment? (v ++ s) = none) :
    comment? (v ++ t) = none := by
  obtain ⟨hline, hblock⟩ := comment?_eq_none_iff.1 h
  exact comment?_eq_none_iff.2
    ⟨fun hp => hline (hs.prefix_append hp (by decide) (by decide)),
      fun hp => hblock (hs.prefix_append hp (by decide) (by decide))⟩

theorem comment?_of_blockEnd? {rest : Text} {n : Nat} (h : blockEnd? rest = some n) :
    comment? ('/' :: '*' :: rest) = some ⟨.trivia .blockComment, n + 2⟩ := by
  simp [comment?, h]

/-- What is invalid goes on to the end of the input. -/
theorem eq_nil_of_invalid (h : (invalid (v ++ s)).width = v.length) : s = [] := by
  have hlength : (v ++ s).length = v.length := h
  rw [List.length_append] at hlength
  exact List.length_eq_zero_iff.1 (Nat.add_eq_left.1 hlength)

theorem comment?_replace {l : Lexeme} (hs : StopsLike s t) (hne : s ≠ [])
    (h : comment? (v ++ s) = some l) (hwidth : l.width = v.length) : comment? (v ++ t) = some l := by
  rcases comment?_cases h with ⟨hmark, rfl⟩ | ⟨rest, n, heq, hn, rfl⟩ | rfl
  · have hle : 2 ≤ v.length := by
      obtain ⟨rest, hrest⟩ := hmark
      rw [← hwidth, ← hrest]
      exact Nat.le_add_left 2 _
    obtain ⟨v, rfl⟩ := List.prefix_of_prefix_length_le hmark (List.prefix_append v s) hle
    rw [← Text.takeWhile_replace (hs.goesOn (by decide)) hwidth.le]
    rfl
  · have hmark : ['/', '*'] <+: v ++ s := ⟨rest, heq.symm⟩
    obtain ⟨v, rfl⟩ := List.prefix_of_prefix_length_le hmark (List.prefix_append v s)
      (hwidth ▸ Nat.le_add_left 2 n)
    rw [List.append_assoc] at heq
    obtain rfl := List.append_cancel_left heq
    obtain rfl : n = v.length := Nat.add_right_cancel hwidth
    exact comment?_of_blockEnd? (finds_blockEnd?.replace hn t)
  · exact absurd (eq_nil_of_invalid hwidth) hne

/-! ## What the first character selects -/

theorem word_replace (hs : StopsLike s t) (h : (word (v ++ s)).width = v.length) :
    word (v ++ t) = word (v ++ s) := by
  rw [word, word, Text.takeWhile_replace (hs.goesOn (by decide)) h.le]

theorem number_replace {c : Char} (hc : isDecimalDigit c = true) (hs : StopsLike s t)
    (h : number (c :: (v ++ s)) = v.length + 1) : number (c :: (v ++ t)) = number (c :: (v ++ s)) := by
  have hlongest : LongestPrefix IsNumber (c :: (v ++ s)) _ := longestPrefix_number hc
  rw [h, ← List.cons_append, ← List.length_cons] at hlongest
  have hreplaced := hlongest.replace lagsBy_isNumber (by decide) (fun w hw => hw.lineFeed_not_mem) hs
  rw [h]
  exact (longestPrefix_number hc).unique hreplaced

theorem atStart?_replace {a : Symbol} (hs : StopsLike s t) (h : Symbol.atStart? (v ++ s) = some a)
    (hlength : a.text.length = v.length) : Symbol.atStart? (v ++ t) = some a := by
  have hv : a.text = v := by
    have ha := Symbol.isPrefix_of_atStart? h
    exact (List.prefix_of_prefix_length_le ha (List.prefix_append v s) hlength.le).eq_of_length hlength
  have ha : a.text <+: v ++ t := hv ▸ List.prefix_append v t
  rcases hb : Symbol.atStart? (v ++ t) with _ | b
  · have hnone := List.find?_eq_none.1 hb a a.mem_all
    exact absurd (List.isPrefixOf_iff_prefix.2 ha) hnone
  · have hbt := Symbol.isPrefix_of_atStart? hb
    have hbs : b.text <+: v ++ s := hs.prefix_append hbt b.length_text_le b.lineFeed_not_mem
    have hle := Symbol.length_le_of_atStart? h hbs
    have hge := Symbol.length_le_of_atStart? hb ha
    have htext : b.text = a.text :=
      (List.prefix_of_prefix_length_le hbt ha hle).eq_of_length (Nat.le_antisymm hle hge)
    rw [Symbol.text_inj htext]

/-- A rule goes as far as before. -/
theorem ByRule.replace {c : Char} {l : Lexeme} (hs : StopsLike s t) (h : ByRule c (v ++ s) l)
    (hwidth : l.width = v.length + 1) : ByRule c (v ++ t) l := by
  cases h with
  | word start =>
    rw [← List.cons_append] at hwidth ⊢
    rw [← word_replace hs hwidth]
    exact .word start
  | number noWord digit =>
    rw [← number_replace digit hs hwidth]
    exact .number noWord digit
  | escapedName quote tail =>
    obtain rfl := Nat.succ.inj hwidth
    exact .escapedName quote (finds_escapedNameTail?.replace tail t)
  | charLiteral quote tail =>
    obtain rfl := Nat.succ.inj hwidth
    exact .charLiteral quote (finds_charTail?.replace tail t)
  | symbol noWord noDigit noQuote spelled =>
    exact .symbol noWord noDigit noQuote (atStart?_replace (v := c :: v) hs spelled hwidth)

/-! ## Lexemes -/

theorem width_le_of_comment? {l : Lexeme} (h : comment? t = some l) : l.width ≤ t.length := by
  rcases comment?_cases h with ⟨-, rfl⟩ | ⟨rest, n, rfl, hn, rfl⟩ | rfl
  · exact (List.takeWhile_prefix _).length_le
  · exact Nat.succ_le_succ (Nat.succ_le_succ (finds_blockEnd?.le hn))
  · exact Nat.le_refl _

theorem ByRule.width_le {c : Char} {rest : Text} {l : Lexeme} (h : ByRule c rest l) :
    l.width ≤ (c :: rest).length := by
  cases h with
  | word _ => exact (List.takeWhile_prefix _).length_le
  | number _ digit => exact (longestPrefix_number digit).le
  | escapedName _ tail => exact Nat.succ_le_succ (finds_escapedNameTail?.le tail)
  | charLiteral _ tail => exact Nat.succ_le_succ (finds_charTail?.le tail)
  | symbol _ _ _ spelled => exact (Symbol.isPrefix_of_atStart? spelled).length_le

/-- No lexeme is longer than the text that starts with it. -/
theorem width_le {l : Lexeme} (h : ofText? t = some l) : l.width ≤ t.length := by
  rcases t with _ | ⟨c, rest⟩
  · cases h
  obtain rfl : first c rest = l := Option.some.inj h
  unfold first
  split
  · exact Nat.succ_le_succ (List.takeWhile_prefix _).length_le
  · split
    · exact Nat.succ_le_succ (width_stringTail_le 0 rest)
    · rcases hl : (comment? (c :: rest)).or (byRule? c rest) with _ | l
      · exact Nat.le_refl _
      · rcases Option.or_eq_some_iff.1 hl with hcomment | ⟨-, hrule⟩
        · exact width_le_of_comment? hcomment
        · exact (byRule?_eq_some_iff.1 hrule).width_le

/-- **A lexeme does not change** if what stands behind it is replaced by a text that stops like it.
Only white space goes on with a line feed. -/
theorem ofText?_replace {l : Lexeme} (hs : StopsLike s t)
    (hspace : l.category = .trivia .whitespace → t.head? = some '\n' → s.head? = some '\n')
    (h : ofText? (v ++ s) = some l) (hwidth : l.width = v.length) : ofText? (v ++ t) = some l := by
  by_cases hne : s = []
  · rw [hs.eq_nil hne]
    rwa [hne] at h
  rcases v with _ | ⟨c, v⟩
  · exact absurd hwidth (Nat.ne_of_gt (width_pos h))
  obtain rfl : first c (v ++ s) = l := Option.some.inj h
  refine congrArg some ?_
  change first c (v ++ t) = _
  unfold first at hspace hwidth ⊢
  split
  · rename_i hc
    rw [if_pos hc] at hspace hwidth
    rw [Text.takeWhile_replace ?_ (Nat.succ.inj hwidth).le]
    intro d hd hhead
    by_cases hfeed : d = '\n'
    · exact hfeed ▸ hspace rfl (hfeed ▸ hhead)
    · exact (hs.head? hhead).resolve_left hfeed
  rename_i hc
  rw [if_neg hc] at hwidth
  split
  · rename_i hquote
    rw [if_pos hquote] at hwidth
    exact string_replace hs hne hwidth
  rename_i hquote
  rw [if_neg hquote] at hwidth
  rcases hl : (comment? (c :: (v ++ s))).or (byRule? c (v ++ s)) with _ | l
  · rw [hl] at hwidth
    exact absurd (eq_nil_of_invalid (v := c :: v) hwidth) hne
  rw [hl, Option.getD_some] at hwidth
  rcases Option.or_eq_some_iff.1 hl with hcomment | ⟨hnone, hrule⟩
  · have hkept : comment? (c :: (v ++ t)) = some l := comment?_replace (v := c :: v) hs hne hcomment hwidth
    rw [hkept]
    rfl
  · have hkept : comment? (c :: (v ++ t)) = none := comment?_replace_none (v := c :: v) hs hnone
    rw [hkept, byRule?_eq_some_iff.2 ((byRule?_eq_some_iff.1 hrule).replace hs hwidth)]
    rfl

end Lexeme

end AngleLexer
