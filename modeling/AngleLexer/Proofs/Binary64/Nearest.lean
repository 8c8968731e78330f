import Mathlib.Algebra.Order.Field.Power
import Mathlib.Data.Rat.Cast.Order
import Mathlib.Order.Monotone.Basic
import Mathlib.Tactic.Linarith
import Mathlib.Tactic.Positivity
import Mathlib.Tactic.Ring

/-!
# The nearest binary64 number

Rounding to nearest, ties to even, is said here over the rationals and without computing anything. A
pattern stands for a number (`patternValue`), and patterns are ordered as these numbers are
(`patternValue_strictMono`). So a number between two patterns that follow each other has one of these two
for its nearest (`isNearest_lower`, `isNearest_upper`). A number is rounded to the nearest of the finite
patterns, or to infinity from the overflow threshold on (`RoundsTo`). There is only one such pattern
(`RoundsTo.unique`), and it can be looked for as though there were no end to the exponents
(`IsNearest.roundsTo`).
-/

namespace AngleLexer.Binary64

/-! ## Patterns as numbers -/

/-- The number that a pattern without a sign stands for. Where the exponent field is zero the number is
subnormal: its significand has no leading one, and its exponent is that of the field one. The exponents
have no end here. -/
def patternValue (p : Nat) : ℚ :=
  if p / 2 ^ 52 = 0 then (p % 2 ^ 52 : Nat) * 2 ^ (-1074 : ℤ)
  else (2 ^ 52 + p % 2 ^ 52 : Nat) * 2 ^ ((p / 2 ^ 52 : Nat) - 1075 : ℤ)

/-- Numbers of one spacing follow each other, from the first to the first of the next spacing. -/
theorem patternValue_block {k s : Nat} (hs : s ≤ 2 ^ 53) (hk : k = 0 ∨ 2 ^ 52 ≤ s) :
    patternValue (k * 2 ^ 52 + s) = s * 2 ^ ((k : ℤ) - 1074) := by
  unfold patternValue
  rcases Nat.lt_or_ge s (2 ^ 52) with hlt | hge
  · obtain rfl : k = 0 := hk.resolve_right (Nat.not_le.2 hlt)
    rw [if_pos (by omega), Nat.zero_mul, Nat.zero_add, Nat.mod_eq_of_lt hlt]
    rfl
  rcases Nat.lt_or_ge s (2 ^ 53) with hlt | hge'
  · have hfield : (k * 2 ^ 52 + s) / 2 ^ 52 = k + 1 := by omega
    have hfraction : 2 ^ 52 + (k * 2 ^ 52 + s) % 2 ^ 52 = s := by omega
    have hexponent : ((k + 1 : Nat) : ℤ) - 1075 = k - 1074 := by omega
    rw [hfield, if_neg (Nat.succ_ne_zero k), hfraction, hexponent]
  · obtain rfl : s = 2 ^ 53 := Nat.le_antisymm hs hge'
    have hfield : (k * 2 ^ 52 + 2 ^ 53) / 2 ^ 52 = k + 2 := by omega
    have hfraction : 2 ^ 52 + (k * 2 ^ 52 + 2 ^ 53) % 2 ^ 52 = 2 ^ 52 := by omega
    have hexponent : ((k + 2 : Nat) : ℤ) - 1075 = 1 + (k - 1074) := by omega
    rw [hfield, if_neg (by omega), hfraction, hexponent, zpow_add₀ two_ne_zero]
    push_cast
    ring

/-- Every pattern is one of a spacing, and not the last. -/
theorem exists_block (p : Nat) :
    ∃ k s, p = k * 2 ^ 52 + s ∧ s < 2 ^ 53 ∧ (k = 0 ∨ 2 ^ 52 ≤ s) := by
  rcases Nat.lt_or_ge p (2 ^ 52) with hlt | hge
  · exact ⟨0, p, by omega, by omega, Or.inl rfl⟩
  · exact ⟨p / 2 ^ 52 - 1, 2 ^ 52 + p % 2 ^ 52, by omega, by omega, Or.inr (by omega)⟩

/-- **Patterns are ordered** as the numbers are that they stand for. -/
theorem patternValue_strictMono : StrictMono patternValue := by
  refine strictMono_nat_of_lt_succ fun p => ?_
  obtain ⟨k, s, rfl, hs, hk⟩ := exists_block p
  rw [patternValue_block hs.le hk, Nat.add_assoc, patternValue_block hs (hk.imp_right Nat.le_succ_of_le)]
  exact mul_lt_mul_of_pos_right (Nat.cast_lt.2 (Nat.lt_succ_self s)) (by positivity)

/-! ## The nearest pattern -/

/-- The pattern nearest to a number among those below a bound; of two that are equally near, the even
one. The last bit of a pattern is that of the significand. -/
structure IsNearest (bound : Nat) (q : ℚ) (p : Nat) : Prop where
  /-- the pattern is below the bound -/
  lt : p < bound
  /-- no other is nearer -/
  le : ∀ p' < bound, |q - patternValue p| ≤ |q - patternValue p'|
  /-- one that is only as near as another is even -/
  even : ∀ p' < bound, p' ≠ p → |q - patternValue p| = |q - patternValue p'| → p % 2 = 0

section Neighbours

variable {q : ℚ} {p bound : Nat}

/-- A number not below the value of a pattern is farther from the patterns under it. -/
theorem abs_sub_patternValue_of_le (h : patternValue p ≤ q) {p' : Nat} (hp : p' ≤ p) :
    q - patternValue p ≤ |q - patternValue p'| := by
  have hmono := patternValue_strictMono.monotone hp
  rw [abs_of_nonneg (by linarith)]
  linarith

/-- A number not above the value of a pattern is farther from the patterns over it. -/
theorem abs_sub_patternValue_of_ge (h : q ≤ patternValue p) {p' : Nat} (hp : p ≤ p') :
    patternValue p - q ≤ |q - patternValue p'| := by
  have hmono := patternValue_strictMono.monotone hp
  rw [abs_of_nonpos (by linarith)]
  linarith

/-- **The lower of two neighbours** is nearest to a number between them that is not nearer to the upper. -/
theorem isNearest_lower (hbound : p < bound) (hlow : patternValue p ≤ q)
    (hle : q - patternValue p ≤ patternValue (p + 1) - q)
    (heven : q - patternValue p = patternValue (p + 1) - q → p % 2 = 0) : IsNearest bound q p := by
  have hdist : |q - patternValue p| = q - patternValue p := abs_of_nonneg (by linarith)
  have hover {p' : Nat} (hp : p < p') : patternValue (p + 1) - q ≤ |q - patternValue p'| :=
    abs_sub_patternValue_of_ge (by linarith) hp
  refine ⟨hbound, fun p' _ => ?_, fun p' _ hne heq => heven ?_⟩
  · rw [hdist]
    rcases Nat.lt_or_ge p p' with hp | hp
    · exact hle.trans (hover hp)
    · exact abs_sub_patternValue_of_le hlow hp
  · rw [hdist] at heq
    rcases Nat.lt_or_gt_of_ne hne with hp | hp
    · -- what is below the lower neighbour is farther away
      have hlt := patternValue_strictMono hp
      rw [abs_of_nonneg (by linarith)] at heq
      linarith
    · exact le_antisymm hle (heq ▸ hover hp)

/-- **The upper of two neighbours** is nearest to a number between them that is not nearer to the lower. -/
theorem isNearest_upper (hbound : p + 1 < bound) (hhigh : q ≤ patternValue (p + 1))
    (hle : patternValue (p + 1) - q ≤ q - patternValue p)
    (heven : patternValue (p + 1) - q = q - patternValue p → (p + 1) % 2 = 0) :
    IsNearest bound q (p + 1) := by
  have hdist : |q - patternValue (p + 1)| = patternValue (p + 1) - q := by
    rw [abs_of_nonpos (by linarith), neg_sub]
  have hunder {p' : Nat} (hp : p' < p + 1) : q - patternValue p ≤ |q - patternValue p'| :=
    abs_sub_patternValue_of_le (by linarith) (Nat.le_of_lt_succ hp)
  refine ⟨hbound, fun p' _ => ?_, fun p' _ hne heq => heven ?_⟩
  · rw [hdist]
    rcases Nat.lt_or_ge p' (p + 1) with hp | hp
    · exact hle.trans (hunder hp)
    · exact abs_sub_patternValue_of_ge hhigh hp
  · rw [hdist] at heq
    rcases Nat.lt_or_gt_of_ne hne with hp | hp
    · exact le_antisymm hle (heq ▸ hunder hp)
    · have hlt := patternValue_strictMono hp
      rw [abs_of_nonpos (by linarith)] at heq
      linarith

end Neighbours

namespace IsNearest

variable {q : ℚ} {p p' bound : Nat}

/-- A tie between two even patterns has a third one between them, which is nearer. -/
theorem not_lt (h : IsNearest bound q p) (h' : IsNearest bound q p') : ¬ p < p' := by
  intro hlt
  have heq : |q - patternValue p| = |q - patternValue p'| :=
    le_antisymm (h.le p' h'.lt) (h'.le p h.lt)
  have hparity := h.even p' h'.lt hlt.ne' heq
  have hparity' := h'.even p h.lt hlt.ne heq.symm
  have hmid : p < p + 1 ∧ p + 1 < p' := by omega
  have hlow := patternValue_strictMono hmid.1
  have hhigh := patternValue_strictMono hmid.2
  have hle := h.le (p + 1) (hmid.2.trans h'.lt)
  grind

theorem unique (h : IsNearest bound q p) (h' : IsNearest bound q p') : p = p' :=
  Nat.le_antisymm (Nat.not_lt.1 (h'.not_lt h)) (Nat.not_lt.1 (h.not_lt h'))

theorem mono (h : IsNearest bound q p) {bound' : Nat} (hlt : p < bound') (hle : bound' ≤ bound) :
    IsNearest bound' q p where
  lt := hlt
  le p' hp := h.le p' (hp.trans_le hle)
  even p' hp := h.even p' (hp.trans_le hle)

end IsNearest

/-! ## Rounding -/

/-- The pattern that a number is rounded to. -/
inductive RoundsTo (q : ℚ) : Nat → Prop
  /-- infinity, from the middle between the largest finite number and the next power of two -/
  | infinite (overflow : 2 ^ 1024 - 2 ^ 970 ≤ q) : RoundsTo q (2047 * 2 ^ 52)
  /-- below that, the nearest of the finite patterns -/
  | finite {p : Nat} (inRange : q < 2 ^ 1024 - 2 ^ 970) (nearest : IsNearest (2047 * 2 ^ 52) q p) :
    RoundsTo q p

/-- A number is rounded to one pattern only. -/
theorem RoundsTo.unique {q : ℚ} {p p' : Nat} (h : RoundsTo q p) (h' : RoundsTo q p') : p = p' := by
  cases h with
  | infinite overflow =>
    cases h' with
    | infinite _ => rfl
    | finite inRange _ => exact absurd overflow inRange.not_ge
  | finite inRange nearest =>
    cases h' with
    | infinite overflow => exact absurd overflow inRange.not_ge
    | finite _ nearest' => exact nearest.unique nearest'

/-- A number is rounded to infinity from the threshold on. -/
theorem RoundsTo.eq_infinity_iff {q : ℚ} {p : Nat} (h : RoundsTo q p) :
    p = 2047 * 2 ^ 52 ↔ 2 ^ 1024 - 2 ^ 970 ≤ q := by
  cases h with
  | infinite overflow => exact ⟨fun _ => overflow, fun _ => rfl⟩
  | finite inRange nearest =>
    exact ⟨fun heq => absurd heq nearest.lt.ne, fun hover => absurd hover inRange.not_ge⟩

/-- Where infinity stands, the next power of two would. -/
theorem patternValue_infinity : patternValue (2047 * 2 ^ 52) = 2 ^ 1024 := by
  have hpow : (2 : ℚ) ^ 1024 = 2 ^ 53 * 2 ^ 971 := by rw [← pow_add]
  rw [hpow]
  exact patternValue_block (k := 2045) (s := 2 ^ 53) le_rfl (by decide)

theorem patternValue_largest : patternValue (2047 * 2 ^ 52 - 1) = 2 ^ 1024 - 2 * 2 ^ 970 := by
  have hpow : (2 : ℚ) ^ 1024 - 2 * 2 ^ 970 = (2 ^ 53 - 1 : Nat) * 2 ^ 971 := by
    rw [Nat.cast_sub (by decide), Nat.cast_pow, sub_mul, ← pow_succ', Nat.cast_two, ← pow_add,
      Nat.cast_one, one_mul]
  rw [hpow]
  exact patternValue_block (k := 2045) (s := 2 ^ 53 - 1) (by decide) (by decide)

/-- **Patterns beyond the finite ones** may be let in while the nearest is looked for: if it is one of
them, the number is not below the threshold. -/
theorem IsNearest.roundsTo {q : ℚ} {p bound : Nat} (h : IsNearest bound q p)
    (hbound : 2047 * 2 ^ 52 < bound) : RoundsTo q (min p (2047 * 2 ^ 52)) := by
  have hinfinity := patternValue_infinity
  have hlargest := patternValue_largest
  have hpos : (0 : ℚ) < 2 ^ 970 := by positivity
  rcases Nat.lt_or_ge p (2047 * 2 ^ 52) with hp | hp
  · rw [min_eq_left hp.le]
    refine .finite (lt_of_not_ge fun hover => ?_) (h.mono hp hbound.le)
    have hlow := patternValue_strictMono.monotone (Nat.le_sub_one_of_lt hp)
    have hle := h.le (2047 * 2 ^ 52) hbound
    have heven := h.even (2047 * 2 ^ 52) hbound hp.ne'
    rw [hinfinity] at hle heven
    rw [hlargest] at hlow
    generalize (2 : ℚ) ^ 970 = half, (2 : ℚ) ^ 1024 = top at *
    -- the threshold itself is left: it is a tie, and the largest finite pattern is odd
    have hdist : |q - patternValue p| = q - patternValue p := abs_of_nonneg (by linarith)
    have hdist' : |q - top| = top - q := by
      rw [hdist] at hle
      rw [abs_of_nonpos (by grind), neg_sub]
    rw [hdist, hdist'] at hle heven
    have heq : patternValue p = patternValue (2047 * 2 ^ 52 - 1) := by linarith
    rw [patternValue_strictMono.injective heq] at heven
    exact absurd (heven (by linarith)) (by decide)
  · rw [min_eq_right hp]
    refine .infinite ?_
    have hhigh := patternValue_strictMono.monotone hp
    have hle := h.le (2047 * 2 ^ 52 - 1) (by omega)
    rw [hinfinity] at hhigh
    rw [hlargest] at hle
    generalize (2 : ℚ) ^ 970 = half, (2 : ℚ) ^ 1024 = top at *
    by_contra hlt
    rw [abs_of_nonpos (by linarith)] at hle
    grind

/-- Below half of the smallest number there is nothing nearer than zero. -/
theorem roundsTo_zero {q : ℚ} (hnonneg : 0 ≤ q) (h : q < 2 ^ (-1075 : ℤ)) : RoundsTo q 0 := by
  have hzero : patternValue 0 = 0 := by simp [patternValue]
  have hone : patternValue (0 + 1) = 2 * 2 ^ (-1075 : ℤ) := by
    rw [← zpow_one_add₀ two_ne_zero]
    simp [patternValue]
  have hlt : q - patternValue 0 < patternValue (0 + 1) - q := by
    rw [hzero, hone]
    linarith
  have hnearest : IsNearest (2047 * 2 ^ 52 + 1) q 0 :=
    isNearest_lower (Nat.succ_pos _) (hzero.trans_le hnonneg) hlt.le fun _ => rfl
  exact hnearest.roundsTo (Nat.lt_succ_self _)

end AngleLexer.Binary64
