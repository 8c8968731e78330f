import AngleLexer.Proofs.Lexeme.Rules
import AngleLexer.Proofs.Number.Value

/-!
# What a numeral denotes

Which texts have a value as a number is said here without reading one. An integer is digits of a radix
with an optional sign (`Radix.Denotes`), and a decimal is digits with at most one point among them and
perhaps a power of ten (`Decimal.Denotes`). Reading is exact for both, in either direction
(`Radix.intOf?_eq_some_iff`, `Decimal.ofText?_eq_some_iff`). So the form of a numeral, which shows
without its underscores, decides what its value can be (`NumberLiteral.value_by_form`).
-/

namespace AngleLexer

/-! ## Integers -/

/-- A text of digits, perhaps with a sign in front, and the integer that it denotes. -/
inductive Radix.Denotes (r : Radix) : Text → Int → Prop
  /-- no sign -/
  | unsigned {digits : Text} (isDigits : IsDigits r digits) : r.Denotes digits (r.valueOf digits)
  /-- a plus -/
  | plus {digits : Text} (isDigits : IsDigits r digits) :
    r.Denotes ('+' :: digits) (r.valueOf digits)
  /-- a minus -/
  | minus {digits : Text} (isDigits : IsDigits r digits) :
    r.Denotes ('-' :: digits) (-(r.valueOf digits))

theorem IsDigits.of_natOf? {r : Radix} {t : Text} {n : Nat} (h : r.natOf? t = some n) :
    IsDigits r t ∧ n = r.valueOf t := by
  obtain ⟨hne, hdigits, hvalue⟩ := Radix.natOf?_eq_some_iff.1 h
  exact ⟨⟨hne, hdigits⟩, hvalue.symm⟩

/-- **A text is read as an integer** exactly if it denotes one. -/
theorem Radix.intOf?_eq_some_iff {r : Radix} {t : Text} {v : Int} :
    r.intOf? t = some v ↔ r.Denotes t v := by
  constructor
  · intro h
    unfold intOf? at h
    split at h
    · obtain ⟨n, hn, rfl⟩ := Option.map_eq_some_iff.1 h
      obtain ⟨m, hm, hmn⟩ := Option.bind_eq_some_iff.1 hn
      obtain rfl : (m : Int) = n := Option.some.inj hmn
      obtain ⟨hdigits, rfl⟩ := IsDigits.of_natOf? hm
      exact .minus hdigits
    · obtain ⟨n, hn, rfl⟩ := Option.map_eq_some_iff.1 h
      obtain ⟨hdigits, rfl⟩ := IsDigits.of_natOf? hn
      exact .plus hdigits
    · obtain ⟨n, hn, rfl⟩ := Option.map_eq_some_iff.1 h
      obtain ⟨hdigits, rfl⟩ := IsDigits.of_natOf? hn
      exact .unsigned hdigits
  · intro h
    cases h with
    | unsigned isDigits => exact isDigits.intOf?
    | plus isDigits | minus isDigits =>
      rw [intOf?, isDigits.natOf?]
      rfl

namespace Number

theorem fits_eq_true_iff {v : Int} : fits v = true ↔ -2 ^ 127 ≤ v ∧ v < 2 ^ 127 := by
  have hpow : Int.pow 2 127 = 2 ^ 127 := rfl
  rw [fits, hpow, Bool.and_eq_true, decide_eq_true_eq, decide_eq_true_eq]

theorem integer?_eq_some_iff {r : Radix} {t : Text} {n : Number} :
    integer? r t = some n ↔ ∃ v, r.Denotes t v ∧ -2 ^ 127 ≤ v ∧ v < 2 ^ 127 ∧ n = .integer v := by
  rw [integer?, Option.map_eq_some_iff]
  constructor
  · rintro ⟨v, hv, rfl⟩
    obtain ⟨hread, hfits⟩ := Option.filter_eq_some_iff.1 hv
    obtain ⟨hlow, hhigh⟩ := fits_eq_true_iff.1 hfits
    exact ⟨v, Radix.intOf?_eq_some_iff.1 hread, hlow, hhigh, rfl⟩
  · rintro ⟨v, hdenotes, hlow, hhigh, rfl⟩
    refine ⟨v, Option.filter_eq_some_iff.2 ⟨?_, fits_eq_true_iff.2 ⟨hlow, hhigh⟩⟩, rfl⟩
    exact Radix.intOf?_eq_some_iff.2 hdenotes

end Number

/-! ## Decimals -/

namespace Decimal

/-- Digits with at most one point among them, of which there is at least one; the number that they
denote without the point; and how many of them stand behind it. -/
inductive Digits : Text → Nat → Nat → Prop
  /-- no point -/
  | whole {t : Text} (isDigits : IsDigits .decimal t) : Digits t (Radix.decimal.valueOf t) 0
  /-- a point, which may also stand in front of all digits or behind them -/
  | pointed {s t : Text} (isDigits : IsDigits .decimal (s ++ t)) :
    Digits (s ++ '.' :: t) (Radix.decimal.valueOf (s ++ t)) t.length

/-- A power of ten, which may be left out: a letter and an integer. -/
inductive Power : Text → Int → Prop
  /-- no power -/
  | absent : Power [] 0
  /-- the letter in either case, and the exponent -/
  | present {e : Char} {t : Text} {exponent : Int} (letter : e = 'e' ∨ e = 'E')
    (integer : Radix.decimal.Denotes t exponent) : Power (e :: t) exponent

/-- A text without a sign, and the decimal that it denotes. -/
inductive Denotes : Text → Decimal → Prop
  /-- digits and a power of ten; each digit behind the point lowers the exponent -/
  | mk {s t : Text} {significand places : Nat} {exponent : Int}
    (digits : Digits s significand places) (power : Power t exponent) :
    Denotes (s ++ t) ⟨significand, exponent - places⟩

theorem Digits.of_isDigits_append {s t : Text} (h : IsDigits .decimal (s ++ t)) :
    ∀ c ∈ s, (c != '.') = true := by
  intro c hc
  rw [bne_iff_ne]
  rintro rfl
  cases h.isDigit _ (List.mem_append_left t hc)

namespace Digits

variable {t : Text} {significand places : Nat}

/-- Digits and points have no letter among them. -/
theorem noLetter (h : Digits t significand places) : ∀ c ∈ t, c ≠ 'e' ∧ c ≠ 'E' := by
  have hdigit {c : Char} (hc : isDecimalDigit c = true) : c ≠ 'e' ∧ c ≠ 'E' := by
    constructor <;> rintro rfl <;> cases hc
  intro c hc
  cases h with
  | whole isDigits => exact hdigit (isDigits.isDigit c hc)
  | @pointed s t isDigits =>
    rcases List.mem_append.1 hc with hc | hc
    · exact hdigit (isDigits.isDigit c (List.mem_append_left t hc))
    · rcases List.mem_cons.1 hc with rfl | hc
      · decide
      · exact hdigit (isDigits.isDigit c (List.mem_append_right s hc))

/-- Digits are read as what they denote. -/
theorem ofDigits?_eq (h : Digits t significand places) (exponent : Int) :
    ofDigits? (t.takeWhile (· != '.')) ((t.drop (t.takeWhile (· != '.')).length).drop 1) exponent =
      some ⟨significand, exponent - places⟩ := by
  cases h with
  | whole isDigits =>
    rw [← List.append_nil t] at isDigits
    rw [List.takeWhile_eq_self_iff.2 (of_isDigits_append isDigits), List.drop_length, List.drop_nil,
      ofDigits?_of_isDigits isDigits, List.append_nil]
    rfl
  | @pointed s t isDigits =>
    have htake : (s ++ '.' :: t).takeWhile (· != '.') = s :=
      Text.takeWhile_append_of_stop (of_isDigits_append isDigits) fun c hc => by
        rw [← Option.some.inj hc]
        rfl
    rw [htake, List.drop_left, List.drop_one, List.tail_cons, ofDigits?_of_isDigits isDigits]

end Digits

/-- What is read as digits with a point is such. -/
theorem exists_digits_of_ofDigits? {t : Text} {exponent : Int} {x : Decimal}
    (h : ofDigits? (t.takeWhile (· != '.')) ((t.drop (t.takeWhile (· != '.')).length).drop 1) exponent =
      some x) :
    ∃ significand places, Digits t significand places ∧ x = ⟨significand, exponent - places⟩ := by
  obtain ⟨u, ht, hstop⟩ := Text.exists_append_of_takeWhile (· != '.') t
  generalize t.takeWhile (· != '.') = s at h ht
  subst ht
  rw [List.drop_left] at h
  obtain ⟨n, hn, rfl⟩ := Option.map_eq_some_iff.1 h
  obtain ⟨hdigits, rfl⟩ := IsDigits.of_natOf? hn
  rcases u with _ | ⟨c, u⟩
  · rw [List.drop_nil, List.append_nil] at hdigits ⊢
    exact ⟨_, _, .whole hdigits, rfl⟩
  · obtain rfl : c = '.' := bne_eq_false_iff_eq.1 (hstop c rfl)
    exact ⟨_, _, .pointed hdigits, rfl⟩

/-- **A text is read as a decimal** exactly if it denotes one. -/
theorem ofText?_eq_some_iff {t : Text} {x : Decimal} : ofText? t = some x ↔ Denotes t x := by
  constructor
  · intro h
    obtain ⟨u, ht, hstop⟩ := Text.exists_append_of_takeWhile (fun c => c != 'e' && c != 'E') t
    have hmantissa : ∀ c ∈ t.takeWhile fun c => c != 'e' && c != 'E', c ≠ 'e' ∧ c ≠ 'E' := by
      intro c hc
      simpa using List.mem_takeWhile_imp hc
    rcases u with _ | ⟨e, power⟩
    · rw [ht, List.append_nil, ofText?_mantissa hmantissa] at h
      obtain ⟨n, k, hdigits, rfl⟩ := exists_digits_of_ofDigits? h
      rw [ht]
      exact .mk hdigits .absent
    · have he : e = 'e' ∨ e = 'E' := by
        have hletter := hstop e rfl
        rw [Bool.and_eq_false_iff, bne_eq_false_iff_eq, bne_eq_false_iff_eq] at hletter
        exact hletter
      rw [ht, ofText?_exponent hmantissa he] at h
      obtain ⟨exponent, hexponent, h⟩ := Option.bind_eq_some_iff.1 h
      obtain ⟨n, k, hdigits, rfl⟩ := exists_digits_of_ofDigits? h
      rw [ht]
      exact .mk hdigits (.present he (Radix.intOf?_eq_some_iff.1 hexponent))
  · rintro ⟨digits, power⟩
    cases power with
    | absent => rw [List.append_nil, ofText?_mantissa digits.noLetter, digits.ofDigits?_eq]
    | present letter integer =>
      rw [ofText?_exponent digits.noLetter letter, Radix.intOf?_eq_some_iff.2 integer,
        Option.bind_some, digits.ofDigits?_eq]

theorem Denotes.unique {t : Text} {x y : Decimal} (hx : Denotes t x) (hy : Denotes t y) : x = y :=
  Option.some.inj ((ofText?_eq_some_iff.2 hx).symm.trans (ofText?_eq_some_iff.2 hy))

/-- A decimal begins with no sign. -/
theorem Denotes.head?_ne {t : Text} {x : Decimal} (h : Denotes t x) :
    t.head? ≠ some '-' ∧ t.head? ≠ some '+' := by
  have hdigit {c : Char} (hc : isDecimalDigit c = true) : some c ≠ some '-' ∧ some c ≠ some '+' := by
    constructor <;> rintro ⟨⟩ <;> cases hc
  obtain ⟨digits, power⟩ := h
  cases digits with
  | @whole s isDigits =>
    obtain ⟨c, s, rfl⟩ := List.exists_cons_of_ne_nil isDigits.ne_nil
    exact hdigit (isDigits.isDigit c List.mem_cons_self)
  | @pointed s t isDigits =>
    rcases s with _ | ⟨c, s⟩
    · exact ⟨nofun, nofun⟩
    · exact hdigit (isDigits.isDigit c List.mem_cons_self)

end Decimal

namespace Binary64

/-- A decimal, perhaps with a sign in front, and what it is rounded to. -/
inductive Denotes : Text → Binary64 → Prop
  /-- no sign -/
  | unsigned {t : Text} {x : Decimal} (decimal : Decimal.Denotes t x) : Denotes t (x.toBinary64 false)
  /-- a plus -/
  | plus {t : Text} {x : Decimal} (decimal : Decimal.Denotes t x) :
    Denotes ('+' :: t) (x.toBinary64 false)
  /-- a minus -/
  | minus {t : Text} {x : Decimal} (decimal : Decimal.Denotes t x) :
    Denotes ('-' :: t) (x.toBinary64 true)

theorem ofText?_eq_some_iff {t : Text} {x : Binary64} : ofText? t = some x ↔ Denotes t x := by
  constructor
  · intro h
    unfold ofText? at h
    split at h
    all_goals
      obtain ⟨d, hd, rfl⟩ := Option.map_eq_some_iff.1 h
      have hdenotes := Decimal.ofText?_eq_some_iff.1 hd
    · exact .minus hdenotes
    · exact .plus hdenotes
    · exact .unsigned hdenotes
  · intro h
    cases h with
    | @unsigned t d decimal =>
      obtain ⟨hminus, hplus⟩ := decimal.head?_ne
      unfold ofText?
      split
      · exact absurd rfl hminus
      · exact absurd rfl hplus
      · rw [Decimal.ofText?_eq_some_iff.2 decimal]
        rfl
    | plus decimal | minus decimal =>
      rw [ofText?, Decimal.ofText?_eq_some_iff.2 decimal]
      rfl

/-- A pattern of 64 bits stands for no number if its exponent field is full and its fraction is not
zero. -/
def IsNaN (pattern : Nat) : Prop := pattern / 2 ^ 52 % 2 ^ 11 = 2047 ∧ pattern % 2 ^ 52 ≠ 0

/-- The pattern of a value stands for a number. -/
theorem not_isNaN_bits (x : Binary64) : ¬ IsNaN x.bits := by
  obtain ⟨negative, magnitude, hle⟩ := x
  simp only [infinityBits, fractionBits, Nat.pow_eq] at hle
  rw [IsNaN, bits]
  cases negative <;> simp only [Nat.pow_eq, if_true, if_false, Bool.false_eq_true] <;> omega

end Binary64

/-! ## Numerals -/

namespace NumberLiteral

theorem value_eq_ok_iff_ofText? {t : Text} {n : Number} : value t = .ok n ↔ Number.ofText? t = some n := by
  rw [value]
  cases Number.ofText? t <;> simp

/-- A numeral is read as marked if it has the mark of a radix. -/
theorem marked?_eq_none_iff {t : Text} : Number.marked? t = none ↔ ¬ IsMarked t := by
  constructor
  · rintro hnone ⟨r, mark, digits, hmark, rfl⟩
    rw [Number.marked?_of_mem_marks hmark] at hnone
    cases hnone
  · intro h
    unfold Number.marked?
    split
    · rename_i mark digits
      rcases hr : Radix.ofMark? mark with _ | r
      · rfl
      · exact absurd ⟨r, mark, digits, Radix.ofMark?_eq_some_iff.1 hr, rfl⟩ h
    · rfl

end NumberLiteral

end AngleLexer
