import AngleLexer.Proofs.Lexeme.Behind
import AngleLexer.Proofs.Reader.Pieces
import Mathlib.Data.Nat.Find

/-!
# The lexical grammar, said without reading

What the rules of the language accept is said kind by kind (`Lexeme.Accepts`), and `Lexeme.Starts`
says what a text starts with, unless it is a quote: a run of white space, a comment, or the longest
prefix that some rule accepts. Reading does just that (`Lexeme.starts_iff`).

The rules are tried by the first character, and each takes as much as it can. No longer prefix is
lost by that, because a text that a rule accepts selects the rule with its first character
(`Lexeme.Accepts.exists_byRule`): words, numbers, symbols and quoted forms all begin differently. A
word that is spelled like a keyword is accepted by two rules, and then it is the keyword.
-/

namespace AngleLexer

/-! ## Prefixes -/

namespace Text

/-- What a text starts with, and how long it is, say the same. -/
theorem take_eq_of_isPrefix {x t : Text} {n : Nat} (hx : x <+: t) (hlength : x.length = n) :
    t.take n = x :=
  hlength ▸ (List.prefix_iff_eq_take.1 hx).symm

theorem take_length_takeWhile (p : Char → Bool) (t : Text) :
    t.take (t.takeWhile p).length = t.takeWhile p :=
  take_eq_of_isPrefix (List.takeWhile_prefix p) rfl

/-- A run goes on to a character that does not belong to it, or to the end. -/
theorem exists_append_of_takeWhile (p : Char → Bool) (t : Text) :
    ∃ u, t = t.takeWhile p ++ u ∧ ∀ c ∈ u.head?, p c = false := by
  refine ⟨t.dropWhile p, List.takeWhile_append_dropWhile.symm, fun c hc => ?_⟩
  have hstop := List.head?_dropWhile_not p t
  rw [Option.mem_def.1 hc] at hstop
  exact hstop

/-- It goes no further than that. -/
theorem takeWhile_append_of_stop {p : Char → Bool} {x u : Text} (hx : ∀ c ∈ x, p c = true)
    (hu : ∀ c ∈ u.head?, p c = false) : (x ++ u).takeWhile p = x := by
  rw [List.takeWhile_append_of_pos hx]
  rcases u with _ | ⟨c, u⟩
  · simp
  · rw [List.takeWhile_cons_of_neg (Bool.not_eq_true _ ▸ hu c rfl), List.append_nil]

/-- Two characters that a text starts with are its first two. -/
theorem exists_of_pair_isPrefix {a b c : Char} {rest : Text} (h : [a, b] <+: c :: rest) :
    c = a ∧ ∃ v, rest = b :: v := by
  obtain ⟨v, hv⟩ := h
  obtain ⟨rfl, rfl⟩ := List.cons.inj hv
  exact ⟨rfl, v, rfl⟩

end Text

/-! ## Forms -/

/-- A word: a letter or an underscore, and then letters, underscores and digits. -/
def IsWord (x : Text) : Prop :=
  ∃ c rest, x = c :: rest ∧ Lexeme.isWordStart c = true ∧ ∀ d ∈ rest, Lexeme.isWordRest d = true

/-- The first character of a word may stand in its middle as well. -/
theorem IsWord.isWordRest {x : Text} (h : IsWord x) : ∀ c ∈ x, Lexeme.isWordRest c = true := by
  obtain ⟨c, rest, rfl, hstart, hrest⟩ := h
  refine List.forall_mem_cons.2 ⟨?_, hrest⟩
  rw [Lexeme.isWordRest, hstart, Bool.true_or]

/-- Keywords are words. -/
theorem Keyword.isWord (w : Keyword) : IsWord w.spelling.toList := by
  have hall : ((reservedWords ++ contextualWords).all fun s =>
      s.toList.head?.any Lexeme.isWordStart && s.toList.all Lexeme.isWordRest) = true := by
    decide
  obtain ⟨hstart, hrest⟩ := Bool.and_eq_true_iff.1 (List.all_eq_true.1 hall _ w.listed)
  obtain ⟨c, hc, hstart⟩ := (Option.any_eq_true _ _).1 hstart
  obtain ⟨rest, hspelling⟩ := List.head?_eq_some_iff.1 hc
  rw [hspelling] at hrest ⊢
  exact ⟨c, rest, rfl, hstart, fun d hd => List.all_eq_true.1 hrest d (List.mem_cons_of_mem c hd)⟩

/-- A symbol begins like no other form. -/
theorem Symbol.exists_text_eq_cons (a : Symbol) :
    ∃ c rest, a.text = c :: rest ∧ Lexeme.isWordStart c = false ∧ isDecimalDigit c = false ∧
      c ≠ '\x60' ∧ c ≠ '\'' := by
  have hall : (all.all fun a => a.text.head?.any fun c => decide (Lexeme.isWordStart c = false ∧
      isDecimalDigit c = false ∧ c ≠ '\x60' ∧ c ≠ '\'')) = true := by
    decide
  obtain ⟨c, hc, hfirst⟩ := (Option.any_eq_true _ _).1 (List.all_eq_true.1 hall a a.mem_all)
  obtain ⟨rest, htext⟩ := List.head?_eq_some_iff.1 hc
  exact ⟨c, rest, htext, of_decide_eq_true hfirst⟩

namespace Lexeme

/-! ## The rules -/

/-- What the rule of a kind accepts. -/
inductive Accepts : Kind → Text → Prop
  /-- a keyword is spelled out -/
  | keyword (w : Keyword) : Accepts (.keyword w) w.spelling.toList
  /-- and so is a symbol -/
  | symbol (a : Symbol) : Accepts (.symbol a) a.text
  /-- any word is an identifier -/
  | identifier {x : Text} (isWord : IsWord x) : Accepts .identifier x
  /-- a name between backticks -/
  | escapedName {x : Text} (tail : IsNameTail x) : Accepts .escapedIdentifier ('\x60' :: x)
  /-- a literal between apostrophes -/
  | charLiteral {x : Text} (tail : IsCharTail x) : Accepts .charLiteral ('\'' :: x)
  /-- a number -/
  | number {x : Text} (isNumber : IsNumber x) : Accepts .number x

/-- What a text is made into: the kind of a rule that accepts it, but not an identifier if it is
spelled like a keyword. -/
structure Makes (k : Kind) (x : Text) : Prop where
  /-- the rule accepts the text -/
  accepts : Accepts k x
  /-- an identifier is no keyword -/
  notKeyword : k = .identifier → ∀ w : Keyword, w.spelling.toList ≠ x

/-! ### Words -/

/-- A word that a text starts with is part of the word that is read there. -/
theorem length_le_width_word {x t : Text} (hword : IsWord x) (hx : x <+: t) :
    x.length ≤ (word t).width := by
  obtain ⟨u, rfl⟩ := hx
  change x.length ≤ ((x ++ u).takeWhile isWordRest).length
  rw [List.takeWhile_append_of_pos hword.isWordRest, List.length_append]
  exact Nat.le_add_right _ _

theorem take_width_word (t : Text) : t.take (word t).width = t.takeWhile isWordRest :=
  Text.take_length_takeWhile isWordRest t

theorem word_keyword {t : Text} {w : Keyword} (h : w.spelling.toList = t.take (word t).width) :
    (word t).category = .token (.keyword w) := by
  rw [take_width_word] at h
  rw [word, Keyword.ofText?_eq_some_iff.2 h]
  rfl

theorem word_identifier {t : Text} (h : ∀ w : Keyword, w.spelling.toList ≠ t.take (word t).width) :
    (word t).category = .token .identifier := by
  rw [take_width_word] at h
  rcases hw : Keyword.ofText? (t.takeWhile isWordRest) with _ | w
  · rw [word, hw]
    rfl
  · exact absurd (Keyword.ofText?_eq_some_iff.1 hw) (h w)

theorem makes_word {c : Char} {rest : Text} (hstart : isWordStart c = true) :
    ∃ k, (word (c :: rest)).category = .token k ∧
      Makes k ((c :: rest).take (word (c :: rest)).width) := by
  by_cases hw : ∃ w : Keyword, w.spelling.toList = (c :: rest).take (word (c :: rest)).width
  · obtain ⟨w, hw⟩ := hw
    exact ⟨.keyword w, word_keyword hw, hw ▸ .keyword w, fun hk => nomatch hk⟩
  · have hnone := not_exists.1 hw
    refine ⟨.identifier, word_identifier hnone, .identifier ?_, fun _ => hnone⟩
    have hrest : isWordRest c = true := by rw [isWordRest, hstart, Bool.true_or]
    rw [take_width_word, List.takeWhile_cons_of_pos hrest]
    exact ⟨c, _, rfl, hstart, fun d hd => List.all_eq_true.1 List.all_takeWhile d hd⟩

/-! ### Selecting a rule -/

/-- A digit is no letter. -/
theorem isWordStart_of_isDecimalDigit {c : Char} (h : isDecimalDigit c = true) :
    isWordStart c = false := by
  have hall : (digits.all fun c => !isWordStart c) = true := by decide
  exact Bool.not_eq_true' _ ▸ List.all_eq_true.1 hall c (mem_digits h)

/-- **The first character selects the rule**: where a text begins that a rule accepts, a rule is
selected and takes at least that text. If it takes no more, it is that very rule. -/
theorem Accepts.exists_byRule {k : Kind} {x : Text} (h : Accepts k x) {c : Char} {rest : Text}
    (hx : x <+: c :: rest) :
    ∃ l, ByRule c rest l ∧ x.length ≤ l.width ∧
      (x.length = l.width → Makes k x → l.category = .token k) := by
  cases h with
  | keyword w =>
    have hword := w.isWord
    obtain ⟨d, y, hspelling, hstart, -⟩ := w.isWord
    obtain ⟨rfl, -⟩ := List.cons_prefix_cons.1 (hspelling ▸ hx)
    refine ⟨_, .word hstart, length_le_width_word hword hx, fun hlength _ => word_keyword ?_⟩
    exact (Text.take_eq_of_isPrefix hx hlength).symm
  | identifier isWord =>
    have hle := length_le_width_word isWord hx
    obtain ⟨d, y, rfl, hstart, -⟩ := isWord
    obtain ⟨rfl, -⟩ := List.cons_prefix_cons.1 hx
    refine ⟨_, .word hstart, hle, fun hlength hmakes => word_identifier ?_⟩
    rw [Text.take_eq_of_isPrefix hx hlength]
    exact hmakes.notKeyword rfl
  | symbol a =>
    obtain ⟨d, y, htext, hword, hdigit, hquotes⟩ := a.exists_text_eq_cons
    obtain ⟨rfl, -⟩ := List.cons_prefix_cons.1 (htext ▸ hx)
    obtain ⟨b, hb⟩ : ∃ b, Symbol.atStart? (d :: rest) = some b := by
      rw [← Option.isSome_iff_exists, Symbol.atStart?, List.find?_isSome]
      exact ⟨a, a.mem_all, List.isPrefixOf_iff_prefix.2 hx⟩
    refine ⟨_, .symbol hword hdigit hquotes hb, Symbol.length_le_of_atStart? hb hx, ?_⟩
    intro hlength _
    have htexts : a.text = b.text := by
      rw [← Text.take_eq_of_isPrefix hx hlength]
      exact Text.take_eq_of_isPrefix (Symbol.isPrefix_of_atStart? hb) rfl
    rw [Symbol.text_inj htexts]
  | escapedName tail =>
    obtain ⟨rfl, u, rfl⟩ := List.cons_prefix_cons.1 hx
    have htail := (finds_escapedNameTail? _ _).2 ⟨_, u, rfl, tail, rfl⟩
    exact ⟨_, .escapedName rfl htail, Nat.le_refl _, fun _ _ => rfl⟩
  | charLiteral tail =>
    obtain ⟨rfl, u, rfl⟩ := List.cons_prefix_cons.1 hx
    have htail := (finds_charTail? _ _).2 ⟨_, u, rfl, tail, rfl⟩
    exact ⟨_, .charLiteral rfl htail, Nat.le_refl _, fun _ _ => rfl⟩
  | number isNumber =>
    obtain ⟨d, y, hy, hdigit⟩ := isNumber.exists_cons
    obtain ⟨rfl, -⟩ := List.cons_prefix_cons.1 (hy ▸ hx)
    have hlongest := (longestPrefix_number hdigit).longest _ isNumber hx
    exact ⟨_, .number (isWordStart_of_isDecimalDigit hdigit) hdigit, hlongest, fun _ _ => rfl⟩

/-- Only one rule is selected. -/
theorem ByRule.unique {c : Char} {rest : Text} {l m : Lexeme} (hl : ByRule c rest l)
    (hm : ByRule c rest m) : l = m :=
  Option.some.inj ((byRule?_eq_some_iff.2 hl).symm.trans (byRule?_eq_some_iff.2 hm))

/-- What a selected rule takes is made into a token of its kind. -/
theorem ByRule.makes {c : Char} {rest : Text} {l : Lexeme} (h : ByRule c rest l) :
    ∃ k, l.category = .token k ∧ Makes k ((c :: rest).take l.width) := by
  cases h with
  | word start => exact makes_word start
  | number _ digit =>
    exact ⟨.number, rfl, .number (longestPrefix_number digit).word, fun hk => nomatch hk⟩
  | escapedName quote tail =>
    obtain ⟨x, u, rfl, hx, rfl⟩ := (finds_escapedNameTail? _ _).1 tail
    subst quote
    refine ⟨.escapedIdentifier, rfl, ?_, fun hk => nomatch hk⟩
    rw [List.take_succ_cons, List.take_left]
    exact .escapedName hx
  | charLiteral quote tail =>
    obtain ⟨x, u, rfl, hx, rfl⟩ := (finds_charTail? _ _).1 tail
    subst quote
    refine ⟨.charLiteral, rfl, ?_, fun hk => nomatch hk⟩
    rw [List.take_succ_cons, List.take_left]
    exact .charLiteral hx
  | @symbol a _ _ _ spelled =>
    refine ⟨.symbol a, rfl, ?_, fun hk => nomatch hk⟩
    rw [Text.take_eq_of_isPrefix (Symbol.isPrefix_of_atStart? spelled) rfl]
    exact .symbol a

/-- A selected rule takes the longest prefix that any rule accepts. -/
theorem ByRule.longestPrefix {c : Char} {rest : Text} {l : Lexeme} (h : ByRule c rest l) :
    LongestPrefix (fun x => ∃ k, Accepts k x) (c :: rest) l.width where
  le := h.width_le
  word := by
    obtain ⟨k, -, hmakes⟩ := h.makes
    exact ⟨k, hmakes.accepts⟩
  longest := by
    rintro x ⟨k, hx⟩ hprefix
    obtain ⟨m, hm, hle, -⟩ := hx.exists_byRule hprefix
    rwa [hm.unique h] at hle

/-! ## The grammar -/

/-- No white space and no comment is ahead. -/
structure IsPlain (t : Text) : Prop where
  /-- the text does not start with white space -/
  noSpace : ∀ c ∈ t.head?, isSpace c = false
  /-- nor with the mark of a comment to the end of the line -/
  noLineComment : ¬ ['/', '/'] <+: t
  /-- nor with the mark of a comment that has an end mark -/
  noBlockComment : ¬ ['/', '*'] <+: t

/-- What a text starts with, if it does not start with a quote: the category and the text of its
first lexeme. -/
inductive Starts (t : Text) : Category → Text → Prop
  /-- all the white space up to something else -/
  | whitespace {x u : Text} (split : t = x ++ u) (ne_nil : x ≠ []) (space : ∀ c ∈ x, isSpace c = true)
    (stop : ∀ c ∈ u.head?, isSpace c = false) : Starts t (.trivia .whitespace) x
  /-- a comment up to the line feed that ends the line, or to the end -/
  | lineComment {x u : Text} (mark : ['/', '/'] <+: t) (split : t = x ++ u) (inLine : '\n' ∉ x)
    (stop : ∀ c ∈ u.head?, c = '\n') : Starts t (.trivia .lineComment) x
  /-- a comment through the first end mark behind its opening mark -/
  | blockComment {n : Nat} (mark : ['/', '*'] <+: t) (closed : ['*', '/'] <+: t.drop (n + 2))
    (first : ∀ m < n, ¬ ['*', '/'] <+: t.drop (m + 2)) :
    Starts t (.trivia .blockComment) (t.take (n + 4))
  /-- all of a text with an opening mark but no end mark -/
  | openComment (mark : ['/', '*'] <+: t) (unclosed : ∀ m, ¬ ['*', '/'] <+: t.drop (m + 2)) :
    Starts t (.token .invalid) t
  /-- the longest prefix that a rule accepts -/
  | rule {k : Kind} {n : Nat} (plain : IsPlain t)
    (longest : LongestPrefix (fun x => ∃ k, Accepts k x) t n) (makes : Makes k (t.take n)) :
    Starts t (.token k) (t.take n)
  /-- all of a text of which no rule accepts a prefix -/
  | unknown (plain : IsPlain t) (unaccepted : ∀ k x, Accepts k x → ¬ x <+: t) :
    Starts t (.token .invalid) t

/-! ### Comments -/

theorem blockEnd?_of_mark {t : Text} (h : ['*', '/'] <+: t) : blockEnd? t = some 2 := by
  obtain ⟨u, rfl⟩ := h
  rfl

theorem blockEnd?_of_no_mark {c : Char} {rest : Text} (h : ¬ ['*', '/'] <+: c :: rest) :
    blockEnd? (c :: rest) = (blockEnd? rest).map (· + 1) := by
  rw [blockEnd?]
  rintro u rfl rfl
  exact h ⟨u, rfl⟩

/-- The end mark that is found is the first one. -/
theorem blockEnd?_eq_some_iff {t : Text} {n : Nat} :
    blockEnd? t = some n ↔ ∃ m, n = m + 2 ∧ ['*', '/'] <+: t.drop m ∧
      ∀ j < m, ¬ ['*', '/'] <+: t.drop j := by
  induction t generalizing n with
  | nil =>
    refine iff_of_false nofun ?_
    rintro ⟨m, -, hmark, -⟩
    rw [List.drop_nil] at hmark
    cases List.prefix_nil.1 hmark
  | cons c rest ih =>
    by_cases hmark : ['*', '/'] <+: c :: rest
    · rw [blockEnd?_of_mark hmark]
      constructor
      · intro h
        exact ⟨0, (Option.some.inj h).symm, hmark, fun j hj => absurd hj (Nat.not_lt_zero j)⟩
      · rintro ⟨_ | m, rfl, -, hfirst⟩
        · rfl
        · exact absurd hmark (hfirst 0 (Nat.succ_pos m))
    · rw [blockEnd?_of_no_mark hmark]
      constructor
      · intro h
        obtain ⟨n, hn, rfl⟩ := Option.map_eq_some_iff.1 h
        obtain ⟨m, rfl, hm, hfirst⟩ := ih.1 hn
        refine ⟨m + 1, rfl, hm, ?_⟩
        rintro (_ | j) hj
        · exact hmark
        · exact hfirst j (Nat.lt_of_succ_lt_succ hj)
      · rintro ⟨_ | m, rfl, hm, hfirst⟩
        · exact absurd hm hmark
        · have hrest := ih.2 ⟨m, rfl, hm, fun j hj => hfirst (j + 1) (Nat.succ_lt_succ hj)⟩
          rw [hrest]
          rfl

theorem blockEnd?_eq_none_iff {t : Text} :
    blockEnd? t = none ↔ ∀ m, ¬ ['*', '/'] <+: t.drop m := by
  constructor
  · intro h m hm
    have hex : ∃ m, ['*', '/'] <+: t.drop m := ⟨m, hm⟩
    have hsome := blockEnd?_eq_some_iff.2 ⟨_, rfl, Nat.find_spec hex, fun j hj => Nat.find_min hex hj⟩
    rw [h] at hsome
    cases hsome
  · intro h
    rcases hn : blockEnd? t with _ | n
    · rfl
    · obtain ⟨m, -, hm, -⟩ := blockEnd?_eq_some_iff.1 hn
      exact absurd hm (h m)

/-! ### Reading what the grammar says -/

theorem isPlain_cons_iff {c : Char} {rest : Text} :
    IsPlain (c :: rest) ↔ isSpace c = false ∧ comment? (c :: rest) = none := by
  rw [comment?_eq_none_iff]
  constructor
  · intro h
    exact ⟨h.noSpace c rfl, h.noLineComment, h.noBlockComment⟩
  · rintro ⟨hspace, hline, hblock⟩
    refine ⟨?_, hline, hblock⟩
    intro d hd
    exact Option.some.inj hd ▸ hspace

/-- What the mark of a comment makes of a text. -/
theorem starts_of_comment? {t : Text} {l : Lexeme} (h : comment? t = some l) :
    Starts t l.category (t.take l.width) := by
  unfold comment? at h
  split at h
  · rename_i rest
    obtain rfl := Option.some.inj h
    obtain ⟨u, hsplit, hstop⟩ := Text.exists_append_of_takeWhile (· != '\n') ('/' :: '/' :: rest)
    rw [Text.take_length_takeWhile]
    refine .lineComment ⟨rest, rfl⟩ hsplit ?_ fun c hc => bne_eq_false_iff_eq.1 (hstop c hc)
    intro hfeed
    exact absurd (List.mem_takeWhile_imp hfeed) (by decide)
  · rename_i rest
    split at h
    · rename_i n hn
      obtain rfl := Option.some.inj h
      obtain ⟨m, rfl, hm, hfirst⟩ := blockEnd?_eq_some_iff.1 hn
      exact .blockComment ⟨rest, rfl⟩ hm hfirst
    · rename_i hn
      obtain rfl := Option.some.inj h
      change Starts _ (.token .invalid) (List.take (List.length _) _)
      rw [List.take_length]
      exact .openComment ⟨rest, rfl⟩ (blockEnd?_eq_none_iff.1 hn)
  · cases h

theorem first_eq {c : Char} (hspace : isSpace c = false) (hquote : c ≠ '"') (rest : Text) :
    first c rest = ((comment? (c :: rest)).or (byRule? c rest)).getD (invalid (c :: rest)) := by
  rw [first, hspace, if_neg Bool.false_ne_true, if_neg hquote]

/-- Reading finds what the text starts with. -/
theorem starts_first {c : Char} (hquote : c ≠ '"') (rest : Text) :
    Starts (c :: rest) (first c rest).category ((c :: rest).take (first c rest).width) := by
  rcases hspace : isSpace c with _ | _
  · rw [first_eq hspace hquote]
    rcases hcomment : comment? (c :: rest) with _ | l
    · have hplain := isPlain_cons_iff.2 ⟨hspace, hcomment⟩
      rcases hrule : byRule? c rest with _ | l
      · change Starts _ (.token .invalid) (List.take (List.length _) _)
        rw [List.take_length]
        refine .unknown hplain fun k x hx hprefix => ?_
        obtain ⟨l, hl, -⟩ := hx.exists_byRule hprefix
        rw [byRule?_eq_some_iff.2 hl] at hrule
        cases hrule
      · obtain ⟨k, hk, hmakes⟩ := (byRule?_eq_some_iff.1 hrule).makes
        change Starts _ l.category _
        rw [hk]
        exact .rule hplain (byRule?_eq_some_iff.1 hrule).longestPrefix hmakes
    · exact starts_of_comment? hcomment
  · obtain ⟨u, hsplit, hstop⟩ := Text.exists_append_of_takeWhile isSpace rest
    rw [first, if_pos hspace]
    dsimp only
    rw [List.take_succ_cons, Text.take_length_takeWhile]
    refine .whitespace (congrArg (c :: ·) hsplit) (List.cons_ne_nil _ _) ?_ hstop
    exact List.forall_mem_cons.2 ⟨hspace, fun d hd => List.mem_takeWhile_imp hd⟩

/-- What a text starts with is what reading finds. -/
theorem Starts.ofText?_eq {t : Text} {category : Category} {x : Text} (h : Starts t category x)
    (hne : t ≠ []) (hquote : t.head? ≠ some '"') :
    ofText? t = some ⟨category, x.length⟩ ∧ x <+: t := by
  rcases t with _ | ⟨c, rest⟩
  · exact absurd rfl hne
  have hc : c ≠ '"' := fun hc => hquote (congrArg some hc)
  change some (first c rest) = _ ∧ _
  cases h with
  | @whitespace x u split ne_nil space stop =>
    rcases x with _ | ⟨d, x⟩
    · exact absurd rfl ne_nil
    rw [List.cons_append] at split
    obtain ⟨rfl, rfl⟩ := List.cons.inj split
    obtain ⟨hspace, hrest⟩ := List.forall_mem_cons.1 space
    refine ⟨?_, List.prefix_append (c :: x) u⟩
    rw [first, if_pos hspace, Text.takeWhile_append_of_stop hrest stop]
    rfl
  | @lineComment x u mark split inLine stop =>
    obtain ⟨rfl, v, rfl⟩ := Text.exists_of_pair_isPrefix mark
    have hline : ('/' :: '/' :: v).takeWhile (· != '\n') = x := by
      rw [split]
      refine Text.takeWhile_append_of_stop (fun d hd => ?_) fun d hd => ?_
      · rw [bne_iff_ne]
        rintro rfl
        exact inLine hd
      · rw [stop d hd]
        rfl
    refine ⟨?_, split ▸ List.prefix_append x u⟩
    rw [← hline]
    rfl
  | @blockComment n mark closed first =>
    obtain ⟨rfl, v, rfl⟩ := Text.exists_of_pair_isPrefix mark
    have hend := blockEnd?_eq_some_iff.2 ⟨n, rfl, closed, first⟩
    refine ⟨?_, List.take_prefix _ _⟩
    rw [first_eq (by decide) hc, comment?_of_blockEnd? hend,
      List.length_take_of_le (Nat.succ_le_succ (Nat.succ_le_succ (finds_blockEnd?.le hend)))]
    rfl
  | openComment mark unclosed =>
    obtain ⟨rfl, v, rfl⟩ := Text.exists_of_pair_isPrefix mark
    have hopen : comment? ('/' :: '*' :: v) = some (invalid ('/' :: '*' :: v)) := by
      rw [comment?, blockEnd?_eq_none_iff.2 unclosed]
    refine ⟨?_, List.prefix_refl _⟩
    rw [first_eq (by decide) hc, hopen]
    rfl
  | rule plain longest makes =>
    obtain ⟨hspace, hcomment⟩ := isPlain_cons_iff.1 plain
    obtain ⟨l, hl, hle, hcategory⟩ := makes.accepts.exists_byRule (List.take_prefix _ _)
    obtain rfl := longest.unique hl.longestPrefix
    have hlength := List.length_take_of_le longest.le
    refine ⟨?_, List.take_prefix _ _⟩
    rw [first_eq hspace hc, hcomment, byRule?_eq_some_iff.2 hl, ← hcategory hlength makes, hlength]
    rfl
  | unknown plain unaccepted =>
    obtain ⟨hspace, hcomment⟩ := isPlain_cons_iff.1 plain
    refine ⟨?_, List.prefix_refl _⟩
    rw [first_eq hspace hc, hcomment]
    rcases hrule : byRule? c rest with _ | l
    · rfl
    · obtain ⟨k, -, hmakes⟩ := (byRule?_eq_some_iff.1 hrule).makes
      exact absurd (List.take_prefix _ _) (unaccepted k _ hmakes.accepts)

/-- **What reading finds is what the text starts with**, and nothing else is. -/
theorem starts_iff {t : Text} (hne : t ≠ []) (hquote : t.head? ≠ some '"') {category : Category}
    {x : Text} :
    Starts t category x ↔ ofText? t = some ⟨category, x.length⟩ ∧ x <+: t := by
  constructor
  · intro h
    exact h.ofText?_eq hne hquote
  · rintro ⟨hl, hx⟩
    rcases t with _ | ⟨c, rest⟩
    · exact absurd rfl hne
    · have hstarts := starts_first (fun hc => hquote (congrArg some hc)) rest
      rw [Option.some.inj hl, Text.take_eq_of_isPrefix hx rfl] at hstarts
      exact hstarts

/-- The rule of a kind with a fixed spelling accepts nothing else. -/
theorem Accepts.eq_spelling {k : Kind} {x : Text} (h : Accepts k x) {spelling : String}
    (hspelling : k.spelling? = some spelling) : x = spelling.toList := by
  cases h with
  | keyword w | symbol a => exact congrArg String.toList (Option.some.inj hspelling)
  | identifier _ | escapedName _ | charLiteral _ | number _ => cases hspelling

/-- A token of a kind with a fixed spelling is spelled so. -/
theorem Starts.eq_spelling {t : Text} {k : Kind} {x : Text} (h : Starts t (.token k) x)
    {spelling : String} (hspelling : k.spelling? = some spelling) : x = spelling.toList := by
  cases h with
  | rule _ _ makes => exact makes.accepts.eq_spelling hspelling
  | openComment _ _ | unknown _ _ => cases hspelling

end Lexeme

/-- What a piece is, without its text. -/
def Piece.category : Piece → Category
  | .trivia t => .trivia t.kind
  | .token t => .token t.kind

namespace Reader

/-- A call finds the lexeme that the category and the text of its piece make. -/
theorem ofText?_ahead {r : Reader} (h : r.ahead ≠ []) :
    Lexeme.ofText? r.ahead = some ⟨r.readPiece.1.category, r.readPiece.1.text.length⟩ := by
  rcases hl : Lexeme.ofText? r.ahead with _ | ⟨_ | _, width⟩
  · exact absurd (Lexeme.ofText?_eq_none_iff.1 hl) h
  all_goals
    rw [readPiece_of_ofText? hl, text_piece, List.length_take_of_le (Lexeme.width_le hl)]
    rfl

/-- **Reading follows the grammar.** Whatever text is ahead, if it does not begin with a quote, a
call returns the piece that the text starts with, and no other piece fits: white space and comments
come first, and then the longest prefix that a rule accepts. The text of the piece is taken off and
nothing else. Numbers have a part in this only where a digit is ahead. A token whose kind has a fixed
spelling is spelled so. -/
theorem readPiece_starts_iff (r : Reader) (hne : r.ahead ≠ []) (hquote : r.ahead.head? ≠ some '"') :
    (∀ (category : Category) (x : Text), Lexeme.Starts r.ahead category x ↔
      r.readPiece.1.category = category ∧ r.readPiece.1.text = x) ∧
    r.readPiece.1.text ++ r.readPiece.2.ahead = r.ahead ∧
    ((∀ c ∈ r.ahead.head?, isDecimalDigit c = false) → ∀ x, IsNumber x → ¬ x <+: r.ahead) ∧
    ∀ (t : Token) (spelling : String), r.readPiece.1 = .token t →
      t.kind.spelling? = some spelling → t.text = spelling.toList := by
  have happend := readPiece_text_append r
  have hlexeme := ofText?_ahead hne
  have hprefix : r.readPiece.1.text <+: r.ahead := ⟨_, happend⟩
  refine ⟨fun category x => ?_, happend, ?_, ?_⟩
  · rw [Lexeme.starts_iff hne hquote, hlexeme]
    constructor
    · rintro ⟨hl, hx⟩
      obtain ⟨hcategory, hlength⟩ := Lexeme.mk.inj (Option.some.inj hl)
      refine ⟨hcategory, ?_⟩
      rw [← Text.take_eq_of_isPrefix hprefix hlength, Text.take_eq_of_isPrefix hx rfl]
    · rintro ⟨rfl, rfl⟩
      exact ⟨rfl, hprefix⟩
  · intro hdigit x hx hahead
    obtain ⟨c, rest, rfl, hc⟩ := hx.exists_cons
    obtain ⟨u, hu⟩ := hahead
    rw [hdigit c (by rw [← hu]; rfl)] at hc
    cases hc
  · intro t spelling ht hspelling
    have hstarts := (Lexeme.starts_iff hne hquote).2 ⟨hlexeme, hprefix⟩
    rw [ht] at hstarts
    exact hstarts.eq_spelling hspelling

/-- Of `***=` two stars are read: `**=` begins only at the second one. -/
theorem readPiece_starts_iff_stars :
    (ofText "***=".toList).ahead ≠ [] ∧ (ofText "***=".toList).ahead.head? ≠ some '"' ∧
      Lexeme.Starts "***=".toList (.token (.symbol .starStar)) "**".toList := by
  have hne : (ofText "***=".toList).ahead ≠ [] := by decide
  have hquote : (ofText "***=".toList).ahead.head? ≠ some '"' := by decide
  exact ⟨hne, hquote, ((readPiece_starts_iff _ hne hquote).1 _ _).2 (by decide)⟩

end Reader

end AngleLexer
