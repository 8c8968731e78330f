import AngleLexer.Literal.Number
import AngleLexer.Proofs.Number.Extent
import AngleLexer.Proofs.Numeral
import AngleLexer.Proofs.Reader.Tokens
import Mathlib.Data.List.TakeWhile

/-!
# The values of numbers

Reading and valuing see a number differently: reading goes through its parts, underscores included,
and valuing drops the underscores first and then looks for the form again. The two agree, because
without its underscores a part of a number is still the same part. So every number of a source has a
value, unless it is an integer that does not fit (`NumberLiteral.value_of_number`).
-/

namespace AngleLexer

/-- A text without its underscores. -/
def Text.bare (t : Text) : Text := t.filter (· != '_')

namespace Text

@[simp] theorem bare_nil : bare [] = [] := rfl

theorem bare_append (s t : Text) : (s ++ t).bare = s.bare ++ t.bare :=
  List.filter_append s t

theorem bare_cons {c : Char} (h : c ≠ '_') (t : Text) : bare (c :: t) = c :: t.bare :=
  List.filter_cons_of_pos (by simpa using h)

theorem bare_cons_digit {r : Radix} {c : Char} (h : r.isDigit c = true) (t : Text) :
    bare (c :: t) = c :: t.bare := by
  refine bare_cons ?_ t
  rintro rfl
  rw [r.isDigit_underscore] at h
  cases h

theorem mem_bare {c : Char} {t : Text} : c ∈ t.bare ↔ c ∈ t ∧ c ≠ '_' := by
  simp [bare]

end Text

/-! ## Digits -/

/-- A text of digits, of at least one. -/
structure IsDigits (r : Radix) (t : Text) : Prop where
  /-- there is a digit -/
  ne_nil : t ≠ []
  /-- there is nothing else -/
  isDigit : ∀ c ∈ t, r.isDigit c = true

theorem IsRun.isDigits_bare {r : Radix} {t : Text} (h : IsRun r t) : IsDigits r t.bare := by
  obtain ⟨c, rest, rfl⟩ := List.exists_cons_of_ne_nil h.ne_nil
  refine ⟨?_, ?_⟩
  · rw [Text.bare_cons_digit h.isDigit_head]
    exact List.cons_ne_nil _ _
  · intro d hd
    obtain ⟨hmem, hne⟩ := Text.mem_bare.1 hd
    exact (h.mem hmem).resolve_right hne

namespace IsDigits

variable {r : Radix} {t : Text}

theorem natOf? (h : IsDigits r t) : r.natOf? t = some (r.valueOf t) :=
  Radix.natOf?_eq_some_iff.2 ⟨h.ne_nil, h.isDigit, rfl⟩

/-- Digits without a sign are an integer as they are. -/
theorem intOf? (h : IsDigits r t) : r.intOf? t = some (r.valueOf t : Int) := by
  have hsigns : r.isDigit '-' = false ∧ r.isDigit '+' = false := by cases r <;> decide
  unfold Radix.intOf?
  split
  · have hd := h.isDigit _ List.mem_cons_self
    rw [hsigns.1] at hd
    cases hd
  · have hd := h.isDigit _ List.mem_cons_self
    rw [hsigns.2] at hd
    cases hd
  · rw [h.natOf?]
    rfl

/-- Digits behind a sign are an integer. -/
theorem exists_intOf?_sign (h : IsDigits r t) {sign : Text} (hsign : IsSign sign) :
    ∃ n, r.intOf? (sign ++ t) = some n := by
  cases hsign with
  | absent => exact ⟨_, h.intOf?⟩
  | plus => exact ⟨r.valueOf t, by simp [Radix.intOf?, h.natOf?]⟩
  | minus => exact ⟨-r.valueOf t, by simp [Radix.intOf?, h.natOf?]⟩

end IsDigits

/-! ## Integers -/

namespace Number

theorem fits_natCast (n : Nat) : fits n = decide (n < 2 ^ 127) := by
  have hpow : Int.pow 2 127 = ((2 ^ 127 : Nat) : Int) := by decide
  rw [fits, hpow, Bool.eq_iff_iff, Bool.and_eq_true, decide_eq_true_eq, decide_eq_true_eq,
    decide_eq_true_eq]
  omega

/-- Digits have a value, unless it does not fit. -/
theorem integer?_of_isDigits {r : Radix} {t : Text} (h : IsDigits r t) :
    integer? r t = if r.valueOf t < 2 ^ 127 then some (.integer (r.valueOf t)) else none := by
  rw [integer?, h.intOf?, Option.filter_some, fits_natCast]
  by_cases hlt : r.valueOf t < 2 ^ 127
  · rw [if_pos hlt, if_pos (decide_eq_true hlt)]
    rfl
  · rw [if_neg hlt, if_neg (by simpa using hlt)]
    rfl

theorem marked?_of_mem_marks {r : Radix} {mark : Char} (h : mark ∈ r.marks) (digits : Text) :
    marked? ('0' :: mark :: digits) = some (r, digits) := by
  rw [marked?, Radix.ofMark?_eq_some_iff.2 h]
  rfl

/-- A numeral without the character of a mark is not marked. -/
theorem marked?_eq_none {t : Text} (h : ∀ c ∈ t, ∀ r : Radix, c ∉ r.marks) : marked? t = none := by
  unfold marked?
  split
  · rename_i mark digits
    rcases hr : Radix.ofMark? mark with _ | r
    · rfl
    · exact absurd (Radix.ofMark?_eq_some_iff.1 hr) (h mark (by simp) r)
  · rfl

end Number

/-! ## Floating-point numbers -/

namespace Decimal

theorem ofDigits?_of_isDigits {whole fraction : Text} (h : IsDigits .decimal (whole ++ fraction))
    (power : Int) : ofDigits? whole fraction power =
      some ⟨Radix.decimal.valueOf (whole ++ fraction), power - fraction.length⟩ := by
  rw [ofDigits?, h.natOf?]
  rfl

variable {mantissa : Text} (hmantissa : ∀ c ∈ mantissa, c ≠ 'e' ∧ c ≠ 'E')
include hmantissa

theorem ofText?_mantissa : ofText? mantissa =
    ofDigits? (mantissa.takeWhile (· != '.'))
      ((mantissa.drop (mantissa.takeWhile (· != '.')).length).drop 1) 0 := by
  have htake : mantissa.takeWhile (fun c => c != 'e' && c != 'E') = mantissa :=
    List.takeWhile_eq_self_iff.2 (by simpa using hmantissa)
  rw [ofText?, htake, List.drop_length]

/-- A decimal is read up to the letter of its exponent, and then the exponent. -/
theorem ofText?_exponent {e : Char} (he : e = 'e' ∨ e = 'E') (power : Text) :
    ofText? (mantissa ++ e :: power) =
      (Radix.decimal.intOf? power).bind (ofDigits? (mantissa.takeWhile (· != '.'))
        ((mantissa.drop (mantissa.takeWhile (· != '.')).length).drop 1)) := by
  have htake : (mantissa ++ e :: power).takeWhile (fun c => c != 'e' && c != 'E') = mantissa := by
    rw [List.takeWhile_append_of_pos (by simpa using hmantissa)]
    rcases he with rfl | rfl <;> simp
  rw [ofText?, htake, List.drop_left]

end Decimal

namespace IsMantissa

variable {mantissa : Text}

/-- The digits of a mantissa, with the point left out, are digits. -/
theorem exists_ofDigits? (h : IsMantissa mantissa) (power : Int) :
    ∃ x, Decimal.ofDigits? (mantissa.bare.takeWhile (· != '.'))
      ((mantissa.bare.drop (mantissa.bare.takeWhile (· != '.')).length).drop 1) power = some x := by
  obtain ⟨whole, fraction, rfl, hwhole, hfraction⟩ := h
  have hdigits := hwhole.isDigits_bare
  have hpoint : ∀ c ∈ whole.bare, (c != '.') = true := by
    intro c hc
    rw [bne_iff_ne]
    rintro rfl
    exact hwhole.point_not_mem (Text.mem_bare.1 hc).1
  have htake : (whole ++ fraction).bare.takeWhile (· != '.') = whole.bare := by
    rw [Text.bare_append, List.takeWhile_append_of_pos hpoint]
    cases hfraction with
    | absent => simp
    | present _ => simp [Text.bare_cons]
  rw [htake, Text.bare_append, List.drop_left]
  cases hfraction with
  | absent =>
    rw [Text.bare_nil, List.drop_nil]
    exact ⟨_, Decimal.ofDigits?_of_isDigits (by rwa [List.append_nil]) power⟩
  | @present digits run =>
    rw [Text.bare_cons (by decide), List.drop_one, List.tail_cons]
    refine ⟨_, Decimal.ofDigits?_of_isDigits ⟨by simp [hdigits.ne_nil], ?_⟩ power⟩
    intro c hc
    rcases List.mem_append.1 hc with hc | hc
    · exact hdigits.isDigit c hc
    · exact run.isDigits_bare.isDigit c hc

theorem letter_not_mem_bare (h : IsMantissa mantissa) : ∀ c ∈ mantissa.bare, c ≠ 'e' ∧ c ≠ 'E' := by
  intro c hc
  have hmem := (Text.mem_bare.1 hc).1
  constructor
  · rintro rfl
    exact h.letter_not_mem (Or.inl rfl) hmem
  · rintro rfl
    exact h.letter_not_mem (Or.inr rfl) hmem

end IsMantissa

/-- A number without a mark is a decimal. -/
theorem IsDecimal.exists_ofText? {t : Text} (h : IsDecimal t) : ∃ x, Decimal.ofText? t.bare = some x := by
  obtain ⟨mantissa, exponent, rfl, hmantissa, hexponent⟩ := h
  rw [Text.bare_append]
  cases hexponent with
  | absent =>
    rw [Text.bare_nil, List.append_nil, Decimal.ofText?_mantissa hmantissa.letter_not_mem_bare]
    exact hmantissa.exists_ofDigits? 0
  | @present e sign digits letter isSign run =>
    have he : e ≠ '_' := by rcases letter with rfl | rfl <;> decide
    have hsign : sign.bare = sign := by cases isSign <;> rfl
    obtain ⟨n, hn⟩ := run.isDigits_bare.exists_intOf?_sign isSign
    rw [Text.bare_cons he, Text.bare_append, hsign,
      Decimal.ofText?_exponent hmantissa.letter_not_mem_bare letter, hn, Option.bind_some]
    exact hmantissa.exists_ofDigits? n

/-! ## Numerals -/

/-- No sign is looked for where a digit stands. -/
theorem Binary64.ofText?_digit {c : Char} (h : isDecimalDigit c = true) (t : Text) :
    ofText? (c :: t) = (Decimal.ofText? (c :: t)).map (Decimal.toBinary64 false) := by
  unfold ofText?
  split
  · rename_i heq
    obtain ⟨rfl, -⟩ := List.cons.inj heq
    exact absurd h (by decide)
  · rename_i heq
    obtain ⟨rfl, -⟩ := List.cons.inj heq
    exact absurd h (by decide)
  · rfl

namespace Number

theorem ofText?_of_marked {t digits : Text} {r : Radix} (h : marked? t.bare = some (r, digits)) :
    ofText? t = integer? r digits := by
  rw [ofText?, ← Text.bare, h]

theorem ofText?_of_isFloatForm {t : Text} (hmark : marked? t.bare = none)
    (h : isFloatForm t.bare = true) : ofText? t = (Binary64.ofText? t.bare).map float := by
  rw [ofText?, ← Text.bare, hmark]
  exact if_pos h

theorem ofText?_of_not_isFloatForm {t : Text} (hmark : marked? t.bare = none)
    (h : isFloatForm t.bare = false) : ofText? t = integer? .decimal t.bare := by
  rw [ofText?, ← Text.bare, hmark]
  exact if_neg (ne_true_of_eq_false h)

/-- The characters that make a numeral one of a floating-point number. -/
def floatSigns : List Char := ['.', 'e', 'E']

theorem isFloatForm_iff {t : Text} : isFloatForm t = true ↔ ∃ c ∈ t, c ∈ floatSigns := by
  simp only [isFloatForm, floatSigns, List.any_eq_true, Bool.or_eq_true, beq_iff_eq, List.mem_cons,
    List.not_mem_nil, or_false, or_assoc]

/-- Underscores do not count for the form of a numeral. -/
theorem isFloatForm_bare_iff {t : Text} :
    isFloatForm t.bare = true ↔ ∃ c ∈ t, c ∈ floatSigns := by
  rw [isFloatForm_iff]
  constructor
  · rintro ⟨c, hc, hsign⟩
    exact ⟨c, (Text.mem_bare.1 hc).1, hsign⟩
  · rintro ⟨c, hc, hsign⟩
    refine ⟨c, Text.mem_bare.2 ⟨hc, ?_⟩, hsign⟩
    rintro rfl
    exact absurd hsign (by decide)

end Number

theorem IsDecimal.marked?_bare {t : Text} (h : IsDecimal t) : Number.marked? t.bare = none :=
  Number.marked?_eq_none fun _ hc r => h.not_mem_marks (Text.mem_bare.1 hc).1 r

/-- A number without a mark, a point and an exponent is a run. -/
theorem IsDecimal.isRun {t : Text} (h : IsDecimal t) (hplain : ∀ c ∈ t, c ∉ Number.floatSigns) :
    IsRun .decimal t := by
  obtain ⟨_, exponent, rfl, ⟨whole, fraction, rfl, hwhole, hfraction⟩, hexponent⟩ := h
  cases hfraction with
  | present _ => exact absurd (by decide) (hplain '.' (by simp))
  | absent =>
    cases hexponent with
    | present letter _ _ =>
      refine absurd ?_ (hplain _ (List.mem_append_right _ List.mem_cons_self))
      rcases letter with rfl | rfl <;> decide
    | absent =>
      rw [List.append_nil, List.append_nil]
      exact hwhole

/-- A number without a mark is one of the numbers that are rounded, if it looks like one. -/
theorem IsDecimal.exists_float {t : Text} (h : IsDecimal t) (hform : ∃ c ∈ t, c ∈ Number.floatSigns) :
    ∃ x, Number.ofText? t = some (.float x) := by
  obtain ⟨x, hx⟩ := h.exists_ofText?
  obtain ⟨c, rest, rfl, hc⟩ := h.exists_cons
  refine ⟨x.toBinary64 false, ?_⟩
  rw [Number.ofText?_of_isFloatForm h.marked?_bare (Number.isFloatForm_bare_iff.2 hform)]
  rw [Text.bare_cons_digit hc] at hx ⊢
  rw [Binary64.ofText?_digit hc, hx]
  rfl

namespace NumberLiteral

theorem value_of_ofText? {t : Text} {n : Number} (h : Number.ofText? t = some n) : value t = .ok n := by
  rw [value, h]

/-- A numeral is valued as the integer that its digits denote in a radix: underscores do not count,
and an integer of 128 bits or more has no value. -/
structure IsInteger (numeral : Text) (r : Radix) (digits : Text) : Prop where
  /-- there are digits and nothing else -/
  isDigits : IsDigits r digits.bare
  /-- what they denote is the value, if it fits -/
  value_eq : value numeral =
    if r.valueOf digits.bare < 2 ^ 127 then .ok (.integer (r.valueOf digits.bare))
    else .error (.badNumber numeral)

theorem IsInteger.of_ofText? {numeral digits : Text} {r : Radix} (hdigits : IsDigits r digits.bare)
    (h : Number.ofText? numeral = Number.integer? r digits.bare) : IsInteger numeral r digits where
  isDigits := hdigits
  value_eq := by
    rw [value, h, Number.integer?_of_isDigits hdigits]
    by_cases hlt : r.valueOf digits.bare < 2 ^ 127
    · rw [if_pos hlt, if_pos hlt]
    · rw [if_neg hlt, if_neg hlt]

/-- A numeral with the mark of a radix. -/
def IsMarked (numeral : Text) : Prop :=
  ∃ (r : Radix) (mark : Char) (digits : Text), mark ∈ r.marks ∧ numeral = '0' :: mark :: digits

/-- A number with a mark is valued in the radix of the mark. -/
theorem isInteger_of_mark {r : Radix} {mark : Char} {digits : Text} (hmark : mark ∈ r.marks)
    (h : IsNumber ('0' :: mark :: digits)) : IsInteger ('0' :: mark :: digits) r digits := by
  have hbare : Text.bare ('0' :: mark :: digits) = '0' :: mark :: digits.bare := by
    have hne : mark ≠ '_' := by
      rintro rfl
      revert hmark
      cases r <;> decide
    rw [Text.bare_cons (by decide), Text.bare_cons hne]
  cases h with
  | decimal isDecimal => exact absurd hmark (isDecimal.not_mem_marks (by simp) r)
  | @marked r' _ _ isMark run =>
    have hr : r' = r := by
      have hradix := Radix.ofMark?_eq_some_iff.2 hmark
      rw [Radix.ofMark?_eq_some_iff.2 isMark] at hradix
      exact Option.some.inj hradix
    subst hr
    refine .of_ofText? run.isDigits_bare (Number.ofText?_of_marked ?_)
    rw [hbare, Number.marked?_of_mem_marks hmark]

end NumberLiteral

theorem IsNumber.isDecimal {t : Text} (h : IsNumber t) (hmark : ¬ NumberLiteral.IsMarked t) :
    IsDecimal t := by
  cases h with
  | decimal isDecimal => exact isDecimal
  | marked isMark _ => exact absurd ⟨_, _, _, isMark, rfl⟩ hmark

/-- The numbers of a source are numbers of the grammar. -/
theorem Text.isNumber_of_mem_tokens {source : Text} {t : Token} (ht : t ∈ source.tokens)
    (hkind : t.kind = .number) : IsNumber t.text := by
  obtain ⟨ahead, width, -, hlexeme, htext⟩ := Reader.lexeme_of_mem_tokens ht
  rw [hkind] at hlexeme
  obtain ⟨c, rest, rfl, hc, rfl⟩ := Lexeme.ofText?_eq_number_iff.1 hlexeme
  rw [htext]
  exact (Lexeme.longestPrefix_number hc).word

end AngleLexer
