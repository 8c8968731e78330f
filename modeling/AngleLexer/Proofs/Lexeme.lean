import AngleLexer.Lexeme.Basic

/-!
# What a lexeme can be

Two kinds of token are made by nobody but those who read on: the end of the input, which has no
text, and the `<` that opens type arguments, which cannot be told from the comparison where it
stands. The lexical grammar produces neither (`Lexeme.isGrammatical_of_ofText?`). String literals
are made by their own scan and by no other rule (`Lexeme.ofText?_eq_stringLiteral_iff`), and a text
starts with a number exactly if it starts with a digit (`Lexeme.ofText?_eq_number_iff`).
-/

namespace AngleLexer

/-- The categories that the lexical grammar produces: all but the two kinds of token that only a
reader or a scanner makes. -/
def Category.isGrammatical : Category → Bool
  | .token .endOfInput => false
  | .token .genericLt => false
  | _ => true

theorem Category.isGrammatical_token {k : Kind} (h : (Category.token k).isGrammatical = true) :
    k ≠ .endOfInput ∧ k ≠ .genericLt := by
  constructor <;> rintro rfl <;> cases h

/-- The categories that the first character of a lexeme selects a rule for: words and numbers, what
stands between backticks or apostrophes, and symbols. -/
def Category.isRuled : Category → Bool
  | .token (.keyword _) | .token (.symbol _) | .token .identifier | .token .escapedIdentifier
  | .token .number | .token .charLiteral => true
  | _ => false

theorem Category.isGrammatical_of_isRuled {category : Category} (h : category.isRuled = true) :
    category.isGrammatical = true := by
  unfold isGrammatical
  split
  · cases h
  · cases h
  · rfl

theorem Category.ne_stringLiteral_of_isRuled {category : Category} (h : category.isRuled = true) :
    category ≠ .token .stringLiteral := by
  rintro rfl
  cases h

namespace Lexeme

/-- Where a lexeme lies there is text. -/
theorem ne_nil_of_ofText? {t : Text} {l : Lexeme} (h : ofText? t = some l) : t ≠ [] := by
  rintro rfl
  cases h

/-- What starts with the mark of a comment goes on to the end of its line or to its end mark, or it
is invalid to the end of the text. -/
theorem comment?_cases {t : Text} {l : Lexeme} (h : comment? t = some l) :
    (['/', '/'] <+: t ∧ l = ⟨.trivia .lineComment, (t.takeWhile (· != '\n')).length⟩) ∨
      (∃ rest n, t = ['/', '*'] ++ rest ∧ blockEnd? rest = some n ∧
        l = ⟨.trivia .blockComment, n + 2⟩) ∨
      l = invalid t := by
  unfold comment? at h
  split at h
  · rename_i rest
    exact Or.inl ⟨⟨rest, rfl⟩, (Option.some.inj h).symm⟩
  · rename_i rest
    split at h
    · rename_i n hn
      exact Or.inr (Or.inl ⟨rest, n, rfl, hn, (Option.some.inj h).symm⟩)
    · exact Or.inr (Or.inr (Option.some.inj h).symm)
  · cases h

theorem category_of_comment? {t : Text} {l : Lexeme} (h : comment? t = some l) :
    l.category = .trivia .lineComment ∨ l.category = .trivia .blockComment ∨ l = invalid t := by
  rcases comment?_cases h with ⟨-, rfl⟩ | ⟨rest, n, -, -, rfl⟩ | rfl
  · exact Or.inl rfl
  · exact Or.inr (Or.inl rfl)
  · exact Or.inr (Or.inr rfl)

/-- What the first character of a text selects, rule by rule. -/
inductive ByRule (c : Char) (rest : Text) : Lexeme → Prop
  /-- a word -/
  | word (start : isWordStart c = true) : ByRule c rest (word (c :: rest))
  /-- a number -/
  | number (noWord : isWordStart c = false) (digit : isDecimalDigit c = true) :
    ByRule c rest ⟨.token .number, number (c :: rest)⟩
  /-- a name between backticks -/
  | escapedName {n : Nat} (quote : c = '\x60') (tail : escapedNameTail? rest = some n) :
    ByRule c rest ⟨.token .escapedIdentifier, n + 1⟩
  /-- a literal between apostrophes -/
  | charLiteral {n : Nat} (quote : c = '\'') (tail : charTail? rest = some n) :
    ByRule c rest ⟨.token .charLiteral, n + 1⟩
  /-- a symbol -/
  | symbol {a : Symbol} (noWord : isWordStart c = false) (noDigit : isDecimalDigit c = false)
    (noQuote : c ≠ '\x60' ∧ c ≠ '\'') (spelled : Symbol.atStart? (c :: rest) = some a) :
    ByRule c rest ⟨.token (.symbol a), a.text.length⟩

theorem byRule?_eq_some_iff {c : Char} {rest : Text} {l : Lexeme} :
    byRule? c rest = some l ↔ ByRule c rest l := by
  constructor
  · intro h
    unfold byRule? at h
    split at h
    · rename_i hc
      exact Option.some.inj h ▸ .word hc
    rename_i hword
    split at h
    · rename_i hc
      exact Option.some.inj h ▸ .number (Bool.not_eq_true _ ▸ hword) hc
    rename_i hdigit
    split at h
    · rename_i hc
      obtain ⟨n, hn, rfl⟩ := Option.map_eq_some_iff.1 h
      exact .escapedName hc hn
    rename_i htick
    split at h
    · rename_i hc
      obtain ⟨n, hn, rfl⟩ := Option.map_eq_some_iff.1 h
      exact .charLiteral hc hn
    · rename_i hquote
      obtain ⟨a, ha, rfl⟩ := Option.map_eq_some_iff.1 h
      exact .symbol (Bool.not_eq_true _ ▸ hword) (Bool.not_eq_true _ ▸ hdigit) ⟨htick, hquote⟩ ha
  · intro h
    unfold byRule?
    cases h with
    | word start => rw [if_pos start]
    | number noWord digit => rw [noWord, if_neg Bool.false_ne_true, if_pos digit]
    | escapedName quote tail =>
      subst quote
      rw [if_neg (by decide), if_neg (by decide), if_pos rfl, tail]
      rfl
    | charLiteral quote tail =>
      subst quote
      rw [if_neg (by decide), if_neg (by decide), if_neg (by decide), if_pos rfl, tail]
      rfl
    | symbol noWord noDigit noQuote spelled =>
      rw [noWord, noDigit, if_neg Bool.false_ne_true, if_neg Bool.false_ne_true, if_neg noQuote.1,
        if_neg noQuote.2, spelled]
      rfl

theorem isRuled_word (t : Text) : (word t).category.isRuled = true := by
  unfold word
  dsimp only
  rcases Keyword.ofText? (t.takeWhile isWordRest) with _ | w <;> rfl

theorem ByRule.isRuled {c : Char} {rest : Text} {l : Lexeme} (h : ByRule c rest l) :
    l.category.isRuled = true := by
  cases h with
  | word _ => exact isRuled_word _
  | number _ _ | escapedName _ _ | charLiteral _ _ | symbol _ _ _ _ => rfl

/-- What a text starts with is white space, a scanned string literal, a comment, or by rule; and if
it is none of these, then all of the text is invalid. -/
theorem first_cases (c : Char) (rest : Text) :
    (first c rest).category = .trivia .whitespace ∨
      c = '"' ∧ first c rest = string rest ∨
      (first c rest).category = .trivia .lineComment ∨
      (first c rest).category = .trivia .blockComment ∨
      (first c rest).category.isRuled = true ∨
      first c rest = invalid (c :: rest) := by
  unfold first
  split
  · exact Or.inl rfl
  · split
    · exact Or.inr (Or.inl ⟨‹_›, rfl⟩)
    · refine Or.inr (Or.inr ?_)
      rcases hc : (comment? (c :: rest)).or (byRule? c rest) with _ | l
      · exact Or.inr (Or.inr (Or.inr rfl))
      · rcases Option.or_eq_some_iff.1 hc with h | ⟨-, h⟩
        · rcases category_of_comment? h with h | h | h
          · exact Or.inl h
          · exact Or.inr (Or.inl h)
          · exact Or.inr (Or.inr (Or.inr h))
        · exact Or.inr (Or.inr (Or.inl (byRule?_eq_some_iff.1 h).isRuled))

/-- No text starts with the end of the input, or with an `<` that is known to open type
arguments. -/
theorem isGrammatical_of_ofText? {t : Text} {l : Lexeme} (h : ofText? t = some l) :
    l.category.isGrammatical = true := by
  rcases t with _ | ⟨c, rest⟩
  · cases h
  · obtain rfl : first c rest = l := Option.some.inj h
    rcases first_cases c rest with h | ⟨-, h⟩ | h | h | h | h
    · rw [h]
      rfl
    · rw [h]
      unfold string
      dsimp only
      split <;> rfl
    · rw [h]
      rfl
    · rw [h]
      rfl
    · exact Category.isGrammatical_of_isRuled h
    · rw [h]
      rfl

/-- **A string literal is found only by its scan**, from its opening quote to the closing one. -/
theorem ofText?_eq_stringLiteral_iff {t : Text} {width : Nat} :
    ofText? t = some ⟨.token .stringLiteral, width⟩ ↔
      ∃ rest, t = '"' :: rest ∧ stringLiteral rest = ⟨.closed, width⟩ := by
  constructor
  · intro h
    rcases t with _ | ⟨c, rest⟩
    · cases h
    · have hfirst : first c rest = ⟨.token .stringLiteral, width⟩ := Option.some.inj h
      rcases first_cases c rest with h | ⟨hc, h⟩ | h | h | h | h
      · rw [hfirst] at h
        cases h
      · refine ⟨rest, by rw [hc], ?_⟩
        rw [hfirst] at h
        obtain ⟨hcategory, hwidth⟩ := Lexeme.mk.inj h
        split at hcategory
        · rename_i hfinish
          rw [← hfinish, hwidth]
        · cases hcategory
      · rw [hfirst] at h
        cases h
      · rw [hfirst] at h
        cases h
      · exact absurd (congrArg Lexeme.category hfirst) (Category.ne_stringLiteral_of_isRuled h)
      · rw [hfirst] at h
        cases h
  · rintro ⟨rest, rfl, hscan⟩
    change some (string rest) = _
    rw [string, hscan]
    rfl

/-! ## Rules and digits -/

/-- What a rule makes is neither white space nor quoted nor a comment. -/
theorem byRule?_of_isRuled {c : Char} {rest : Text} (h : (first c rest).category.isRuled = true) :
    byRule? c rest = some (first c rest) := by
  unfold first at h ⊢
  split at h
  · cases h
  · split at h
    · unfold string at h
      dsimp only at h
      split at h <;> cases h
    · rename_i hspace hquote
      rw [if_neg hspace, if_neg hquote]
      rcases hl : (comment? (c :: rest)).or (byRule? c rest) with _ | l
      · rw [hl] at h
        cases h
      · rw [hl] at h
        rcases Option.or_eq_some_iff.1 hl with hcomment | ⟨-, hrule⟩
        · rcases category_of_comment? hcomment with hc | hc | hc
          all_goals
            rw [Option.getD_some, hc] at h
            cases h
        · rw [hrule]
          rfl

/-- The decimal digits. -/
def digits : List Char := ['0', '1', '2', '3', '4', '5', '6', '7', '8', '9']

theorem mem_digits {c : Char} (h : isDecimalDigit c = true) : c ∈ digits := by
  have hle (a b : Char) : a ≤ b ↔ a.toNat ≤ b.toNat := Iff.rfl
  have hn : c.toNat ∈ digits.map Char.toNat := by
    simp only [isDecimalDigit, Radix.isDigit, Radix.digit?, Option.isSome_filter, Radix.hexDigit?,
      hle, Char.reduceToNat] at h
    simp only [digits, List.map_cons, List.map_nil, List.mem_cons, Char.reduceToNat]
    split at h
    · omega
    · split at h
      · have hlt : c.toNat - 87 < 10 := of_decide_eq_true h
        omega
      · split at h
        · have hlt : c.toNat - 55 < 10 := of_decide_eq_true h
          omega
        · cases h
  obtain ⟨d, hd, hdc⟩ := List.mem_map.1 hn
  exact Char.toNat_inj.1 hdc ▸ hd

/-- A digit begins nothing but a number. -/
theorem first_of_isDecimalDigit {c : Char} (h : isDecimalDigit c = true) (rest : Text) :
    first c rest = ⟨.token .number, number (c :: rest)⟩ := by
  have hall : (digits.all fun c => decide
      (isSpace c = false ∧ c ≠ '"' ∧ c ≠ '/' ∧ isWordStart c = false)) = true := by
    decide
  obtain ⟨hspace, hquote, hslash, hword⟩ :=
    of_decide_eq_true (List.all_eq_true.1 hall c (mem_digits h))
  have hcomment : comment? (c :: rest) = none := by
    unfold comment?
    split
    · rename_i heq
      exact absurd (List.cons.inj heq).1 hslash
    · rename_i heq
      exact absurd (List.cons.inj heq).1 hslash
    · rfl
  rw [first, hspace, if_neg Bool.false_ne_true, if_neg hquote, hcomment, byRule?, hword,
    if_neg Bool.false_ne_true, if_pos h]
  rfl

theorem category_word_ne_number (t : Text) : (word t).category ≠ .token .number := by
  unfold word
  dsimp only
  rcases Keyword.ofText? (t.takeWhile isWordRest) with _ | w <;> nofun

theorem ByRule.isDecimalDigit {c : Char} {rest : Text} {l : Lexeme} (h : ByRule c rest l)
    (hcategory : l.category = .token .number) : isDecimalDigit c = true := by
  cases h with
  | word _ => exact absurd hcategory (category_word_ne_number _)
  | number _ digit => exact digit
  | escapedName _ _ | charLiteral _ _ | symbol _ _ _ _ => cases hcategory

/-- **A text starts with a number** exactly if it starts with a digit. -/
theorem ofText?_eq_number_iff {t : Text} {width : Nat} :
    ofText? t = some ⟨.token .number, width⟩ ↔
      ∃ c rest, t = c :: rest ∧ isDecimalDigit c = true ∧ width = number t := by
  constructor
  · intro h
    rcases t with _ | ⟨c, rest⟩
    · cases h
    · have hfirst : first c rest = ⟨.token .number, width⟩ := Option.some.inj h
      have hruled : (first c rest).category.isRuled = true := by
        rw [hfirst]
        rfl
      have hrule := byRule?_of_isRuled hruled
      rw [hfirst] at hrule
      have hc := (byRule?_eq_some_iff.1 hrule).isDecimalDigit rfl
      rw [first_of_isDecimalDigit hc] at hfirst
      exact ⟨c, rest, rfl, hc, (congrArg Lexeme.width hfirst).symm⟩
  · rintro ⟨c, rest, rfl, hc, rfl⟩
    exact congrArg some (first_of_isDecimalDigit hc rest)

end Lexeme

end AngleLexer
