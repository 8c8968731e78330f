import AngleLexer.Binary64.Rounding
import AngleLexer.Proofs.Binary64.Nearest
import Mathlib.Data.Nat.Log
import Mathlib.Tactic.FieldSimp

/-!
# Rounding is correct

Rounding computes with integers that are a quotient in the unit of a spacing. Rounding the quotient to an
integer finds the nearest pattern of that spacing (`isNearest_roundDiv`), and the unit is chosen so that
the quotient lies in the spacing (`log2Ratio_spec`). So a quotient is rounded as it should be
(`magnitudeOfRatio_roundsTo`), and so is a decimal: those that are set aside first are beyond the
threshold, or nearer to zero than to the smallest number (`Decimal.toBinary64_roundsTo`).
-/

namespace AngleLexer

namespace Binary64

/-- A pattern stands for the number that the significand and the exponent of a value give. -/
theorem patternValue_magnitude (x : Binary64) :
    patternValue x.magnitude = x.significand * 2 ^ x.exponent := by
  have hfield : x.exponentField = x.magnitude / 2 ^ 52 := rfl
  have hfraction : x.fraction = x.magnitude % 2 ^ 52 := rfl
  rw [patternValue, significand, exponent, ← hfield, ← hfraction, minExponent]
  by_cases hzero : x.exponentField = 0
  · rw [if_pos hzero, if_pos hzero, hzero]
    rfl
  · have hexponent : (x.exponentField : ℤ) - 1075 = -1074 + (x.exponentField - 1 : Nat) := by omega
    rw [if_neg hzero, if_neg hzero, hexponent]
    rfl

/-! ## One spacing -/

/-- **Rounding a quotient to an integer** rounds it in the unit of a spacing that it lies in. -/
theorem isNearest_roundDiv {k n d bound : Nat} (hd : 0 < d) (hs : n / d < 2 ^ 53)
    (hk : k = 0 ∨ 2 ^ 52 ≤ n / d) (hbound : k * 2 ^ 52 + roundDiv n d < bound) :
    IsNearest bound ((n : ℚ) / d * 2 ^ ((k : ℤ) - 1074)) (k * 2 ^ 52 + roundDiv n d) := by
  have hlower := patternValue_block hs.le hk
  have hupper := patternValue_block (Nat.succ_le_of_lt hs) (hk.imp_right Nat.le_succ_of_le)
  have hd' : (0 : ℚ) < d := Nat.cast_pos.2 hd
  have hunit : (0 : ℚ) < 2 ^ ((k : ℤ) - 1074) := by positivity
  have hn : (n : ℚ) = d * (n / d : Nat) + (n % d : Nat) := by
    rw [← Nat.cast_mul, ← Nat.cast_add, Nat.div_add_mod]
  generalize (2 : ℚ) ^ ((k : ℤ) - 1074) = unit at *
  have hpart : 0 < unit / d := div_pos hunit hd'
  -- both distances are multiples of the same part of the unit
  have hbelow : (n : ℚ) / d * unit - patternValue (k * 2 ^ 52 + n / d) =
      (n % d : Nat) * (unit / d) := by
    rw [hlower, hn]
    field_simp
    ring
  have habove : patternValue (k * 2 ^ 52 + n / d + 1) - (n : ℚ) / d * unit =
      (d - n % d : Nat) * (unit / d) := by
    rw [Nat.add_assoc, hupper, hn, Nat.cast_sub (Nat.mod_lt n hd).le]
    push_cast
    field_simp
    ring
  have hcompare {a b : Nat} : (a : ℚ) * (unit / d) ≤ b * (unit / d) ↔ a ≤ b :=
    (mul_le_mul_iff_left₀ hpart).trans Nat.cast_le
  have hequal {a b : Nat} : (a : ℚ) * (unit / d) = b * (unit / d) ↔ a = b :=
    (mul_left_inj' hpart.ne').trans Nat.cast_inj
  have hrest := Nat.mod_lt n hd
  have hnonneg (a : Nat) : (0 : ℚ) ≤ a * (unit / d) := by positivity
  unfold roundDiv at hbound ⊢
  by_cases hup : d < 2 * (n % d) ∨ (2 * (n % d) = d ∧ n / d % 2 = 1)
  · rw [if_pos hup, ← Nat.add_assoc] at hbound ⊢
    refine isNearest_upper hbound (sub_nonneg.1 (habove ▸ hnonneg _)) ?_ ?_
    · rw [habove, hbelow, hcompare]
      omega
    · rw [habove, hbelow, hequal]
      omega
  · rw [if_neg hup] at hbound ⊢
    refine isNearest_lower hbound (sub_nonneg.1 (hbelow ▸ hnonneg _)) ?_ ?_
    · rw [habove, hbelow, hcompare]
      omega
    · rw [habove, hbelow, hequal]
      omega

/-! ## The spacing of a quotient -/

/-- A power whose exponent may be negative is the quotient of two whose exponents are not. -/
theorem zpow_eq_div {b : ℚ} (hb : b ≠ 0) (e : ℤ) : b ^ e = b ^ e.toNat / b ^ (-e).toNat := by
  have hsum : e + ((-e).toNat : ℤ) = (e.toNat : ℤ) := by omega
  rw [eq_div_iff (pow_ne_zero _ hb), ← zpow_natCast, ← zpow_natCast, ← zpow_add₀ hb, hsum]

/-- Scaling either side of a quotient scales the quotient by a power of two. -/
theorem div_scale (n d : Nat) (e : ℤ) :
    ((n * Nat.pow 2 (-e).toNat : Nat) : ℚ) / (d * Nat.pow 2 e.toNat : Nat) * 2 ^ e = n / d := by
  rw [zpow_eq_div two_ne_zero e]
  simp only [Nat.pow_eq, Nat.cast_mul, Nat.cast_pow, Nat.cast_two]
  field_simp

theorem pow_log2_le {n : Nat} (hn : 0 < n) : (2 : ℚ) ^ (n.log2 : ℤ) ≤ n := by
  rw [zpow_natCast]
  exact_mod_cast Nat.log2_self_le hn.ne'

theorem lt_pow_log2 (n : Nat) : (n : ℚ) < 2 ^ (n.log2 + 1 : ℤ) := by
  rw [← Nat.cast_succ, zpow_natCast]
  exact_mod_cast Nat.lt_log2_self

/-- **A quotient lies between two powers of two** that follow each other. -/
theorem log2Ratio_spec {n d : Nat} (hn : 0 < n) (hd : 0 < d) :
    2 ^ log2Ratio n d ≤ (n : ℚ) / d ∧ (n : ℚ) / d < 2 ^ (log2Ratio n d + 1) := by
  have hn' : (0 : ℚ) < n := Nat.cast_pos.2 hn
  have hd' : (0 : ℚ) < d := Nat.cast_pos.2 hd
  unfold log2Ratio
  generalize he : (n.log2 : ℤ) - d.log2 = e
  -- the test compares the quotient with a power of two
  have htest : d * Nat.pow 2 e.toNat ≤ n * Nat.pow 2 (-e).toNat ↔ (2 : ℚ) ^ e ≤ n / d := by
    rw [zpow_eq_div two_ne_zero, div_le_div_iff₀ (by positivity) hd', ← Nat.cast_le (α := ℚ),
      mul_comm d]
    simp only [Nat.pow_eq, Nat.cast_mul, Nat.cast_pow, Nat.cast_two]
  have hlow : (2 : ℚ) ^ (e - 1) ≤ n / d := by
    rw [le_div_iff₀ hd']
    calc (2 : ℚ) ^ (e - 1) * d ≤ 2 ^ (e - 1) * 2 ^ (d.log2 + 1 : ℤ) :=
          mul_le_mul_of_nonneg_left (lt_pow_log2 d).le (by positivity)
      _ = 2 ^ (n.log2 : ℤ) := by rw [← zpow_add₀ two_ne_zero]; congr 1; omega
      _ ≤ n := pow_log2_le hn
  have hhigh : (n : ℚ) / d < 2 ^ (e + 1) := by
    rw [div_lt_iff₀ hd']
    calc (n : ℚ) < 2 ^ (n.log2 + 1 : ℤ) := lt_pow_log2 n
      _ = 2 ^ (e + 1) * 2 ^ (d.log2 : ℤ) := by rw [← zpow_add₀ two_ne_zero]; congr 1; omega
      _ ≤ 2 ^ (e + 1) * d := mul_le_mul_of_nonneg_left (pow_log2_le hd) (by positivity)
  simp only [htest]
  by_cases h : (2 : ℚ) ^ e ≤ n / d
  · rw [if_pos h]
    exact ⟨h, hhigh⟩
  · rw [if_neg h, Int.sub_add_cancel]
    exact ⟨hlow, not_le.1 h⟩

theorem div_lt_iff_cast {n d b : Nat} (hd : 0 < d) : n / d < b ↔ (n : ℚ) / d < b := by
  rw [Nat.div_lt_iff_lt_mul hd, div_lt_iff₀ (Nat.cast_pos.2 hd), ← Nat.cast_mul, Nat.cast_lt]

/-- In the unit that is chosen for it, a quotient lies in one spacing. -/
theorem quotient_in_spacing {n d k : Nat} {e : ℤ} (hd : 0 < d)
    (hunit : max (e - 52) (-1074) = (k : ℤ) - 1074)
    (hlow : 2 ^ e ≤ (n : ℚ) / d * 2 ^ ((k : ℤ) - 1074))
    (hhigh : (n : ℚ) / d * 2 ^ ((k : ℤ) - 1074) < 2 ^ (e + 1)) :
    n / d < 2 ^ 53 ∧ (k = 0 ∨ 2 ^ 52 ≤ n / d) := by
  have hpos : (0 : ℚ) < 2 ^ ((k : ℤ) - 1074) := by positivity
  constructor
  · rw [div_lt_iff_cast hd, ← mul_lt_mul_iff_left₀ hpos]
    refine hhigh.trans_le ?_
    rw [Nat.cast_pow, Nat.cast_two, ← zpow_natCast, ← zpow_add₀ two_ne_zero]
    exact zpow_le_zpow_right₀ one_le_two (by omega)
  · -- only the smallest unit leaves the quotient with fewer bits
    refine or_iff_not_imp_left.2 fun hne => ?_
    have hexponent : e = 52 + (k - 1074) := by omega
    rw [← not_lt, div_lt_iff_cast hd, not_lt, ← mul_le_mul_iff_left₀ hpos]
    refine le_trans (le_of_eq ?_) hlow
    rw [hexponent, zpow_add₀ two_ne_zero]
    norm_num

/-- **A quotient is rounded** to the nearest pattern. -/
theorem magnitudeOfRatio_roundsTo {n d : Nat} (hn : 0 < n) (hd : 0 < d) :
    RoundsTo ((n : ℚ) / d) (magnitudeOfRatio n d) := by
  obtain ⟨hlow, hhigh⟩ := log2Ratio_spec hn hd
  rw [magnitudeOfRatio, if_neg hn.ne']
  generalize log2Ratio n d = e at *
  simp only [fractionBits, minExponent]
  generalize hunit : max (e - (52 : Nat)) (-1074) = unit
  obtain ⟨k, hk⟩ : ∃ k : Nat, unit - -1074 = k := Int.eq_ofNat_of_zero_le (by omega)
  obtain rfl : unit = k - 1074 := by omega
  have hd' : 0 < d * Nat.pow 2 ((k : ℤ) - 1074).toNat := Nat.mul_pos hd (Nat.pow_pos two_pos)
  rw [← div_scale n d (k - 1074)] at hlow hhigh ⊢
  rw [hk, Int.toNat_natCast]
  generalize n * Nat.pow 2 (-((k : ℤ) - 1074)).toNat = n', d * Nat.pow 2 ((k : ℤ) - 1074).toNat = d' at *
  obtain ⟨hs, hspacing⟩ := quotient_in_spacing hd' hunit hlow hhigh
  have hbound : k * 2 ^ 52 + roundDiv n' d' < k * 2 ^ 52 + roundDiv n' d' + (2047 * 2 ^ 52 + 1) :=
    Nat.lt_add_of_pos_right (Nat.succ_pos _)
  exact (isNearest_roundDiv hd' hs hspacing hbound).roundsTo (by omega)

end Binary64

/-! ## Decimals -/

/-- The number that a decimal is. -/
def Decimal.toRat (x : Decimal) : ℚ := x.significand * 10 ^ x.exponent

namespace Decimal

open Binary64

theorem toRat_nonneg (x : Decimal) : 0 ≤ x.toRat := by
  unfold toRat
  positivity

/-- A decimal as the quotient that rounding forms. -/
theorem toRat_eq_div (x : Decimal) : x.toRat =
    ((x.significand * Nat.pow 10 x.exponent.toNat : Nat) : ℚ) / (Nat.pow 10 (-x.exponent).toNat : Nat) := by
  rw [toRat, zpow_eq_div (by norm_num), ← mul_div_assoc]
  simp only [Nat.pow_eq, Nat.cast_mul, Nat.cast_pow, Nat.cast_ofNat]

/-- A decimal with a large exponent is beyond the threshold. -/
theorem threshold_le_toRat {x : Decimal} (hne : x.significand ≠ 0) (h : overflowExponent ≤ x.exponent) :
    2 ^ 1024 - 2 ^ 970 ≤ x.toRat := by
  have hone : (1 : ℚ) ≤ x.significand := Nat.one_le_cast.2 (Nat.one_le_iff_ne_zero.2 hne)
  have hpow : (2 : ℚ) ^ 1024 ≤ 10 ^ 309 := by
    have hnat : 2 ^ 1024 ≤ 10 ^ 309 := by decide +kernel
    exact_mod_cast hnat
  calc (2 : ℚ) ^ 1024 - 2 ^ 970 ≤ 2 ^ 1024 := sub_le_self _ (by positivity)
    _ ≤ 10 ^ 309 := hpow
    _ = 10 ^ overflowExponent := rfl
    _ ≤ 10 ^ x.exponent := zpow_le_zpow_right₀ (by norm_num) h
    _ ≤ x.toRat := le_mul_of_one_le_left (by positivity) hone

/-- A decimal with a small exponent is nearer to zero than to the smallest number. -/
theorem toRat_lt_tiny {x : Decimal}
    (h : x.significand.log2 + 1 + tinyExponent ≤ -3 * x.exponent) : x.toRat < 2 ^ (-1075 : ℤ) := by
  simp only [tinyExponent] at h
  obtain ⟨n, hn⟩ : ∃ n : Nat, -x.exponent = n := Int.eq_ofNat_of_zero_le (by omega)
  have hexponent : x.exponent = -n := by omega
  have hpow : (10 ^ x.exponent : ℚ) ≤ 2 ^ (3 * x.exponent) := by
    rw [zpow_mul, hexponent, zpow_neg, zpow_neg, zpow_natCast, zpow_natCast]
    exact inv_anti₀ (by positivity) (pow_le_pow_left₀ (by positivity) (by norm_num) n)
  calc x.toRat ≤ x.significand * 2 ^ (3 * x.exponent) :=
        mul_le_mul_of_nonneg_left hpow (Nat.cast_nonneg _)
    _ < 2 ^ (x.significand.log2 + 1 : ℤ) * 2 ^ (3 * x.exponent) :=
        mul_lt_mul_of_pos_right (lt_pow_log2 _) (by positivity)
    _ = 2 ^ (x.significand.log2 + 1 + 3 * x.exponent) := (zpow_add₀ two_ne_zero _ _).symm
    _ ≤ 2 ^ (-1075 : ℤ) := zpow_le_zpow_right₀ one_le_two (by omega)

/-- **A decimal is rounded** to the nearest pattern, whatever its digits and its exponent. -/
theorem toBinary64_roundsTo (x : Decimal) (negative : Bool) :
    RoundsTo x.toRat (x.toBinary64 negative).magnitude := by
  unfold toBinary64
  by_cases hzero : x.significand = 0
  · rw [if_pos hzero]
    refine roundsTo_zero x.toRat_nonneg ?_
    rw [toRat, hzero, Nat.cast_zero, zero_mul]
    positivity
  rw [if_neg hzero]
  by_cases hlarge : overflowExponent ≤ x.exponent
  · rw [if_pos hlarge]
    exact .infinite (threshold_le_toRat hzero hlarge)
  rw [if_neg hlarge]
  by_cases hsmall : x.significand.log2 + 1 + tinyExponent ≤ -3 * x.exponent
  · rw [if_pos hsmall]
    exact roundsTo_zero x.toRat_nonneg (toRat_lt_tiny hsmall)
  · rw [if_neg hsmall, toRat_eq_div]
    have hten (e : Nat) : 0 < Nat.pow 10 e := Nat.pow_pos (by decide)
    exact magnitudeOfRatio_roundsTo (Nat.mul_pos (Nat.pos_of_ne_zero hzero) (hten _)) (hten _)

end Decimal

end AngleLexer
