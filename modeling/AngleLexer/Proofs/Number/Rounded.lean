import AngleLexer.Proofs.Binary64.Rounding
import AngleLexer.Proofs.Number.Denotation

/-!
# Numbers are rounded correctly

A number with a fraction or an exponent is a decimal once its underscores are gone, and it denotes one
rational number. Its value is what that number is rounded to (`NumberLiteral.value_rounded`), so the
digits that stand far behind count for a tie as much as the first ones do.
-/

namespace AngleLexer

theorem Decimal.negative_toBinary64 (x : Decimal) (negative : Bool) :
    (x.toBinary64 negative).negative = negative := by
  unfold toBinary64
  split_ifs <;> rfl

/-- A decimal that was read without a sign is rounded to a pattern of 64 bits without one. -/
theorem Decimal.bits_roundsTo (x : Decimal) : Binary64.RoundsTo x.toRat (x.toBinary64 false).bits := by
  rw [Binary64.bits, x.negative_toBinary64, if_neg Bool.false_ne_true, Nat.zero_add]
  exact x.toBinary64_roundsTo false

namespace NumberLiteral

/-- **Every number in the form of a floating-point number** has for its value the one pattern that its
decimal is rounded to, which is infinity exactly from the threshold on. -/
theorem value_rounded {source : Text} {t : Token} (ht : t ∈ source.tokens) (hkind : t.kind = .number)
    (hmark : ¬ IsMarked t.text) (hform : ∃ c ∈ t.text, c ∈ Number.floatSigns) :
    ∃ (d : Decimal) (x : Binary64), (∀ d', Decimal.Denotes t.text.bare d' ↔ d' = d) ∧
      value t.text = .ok (.float x) ∧ (∀ p, Binary64.RoundsTo d.toRat p ↔ p = x.bits) ∧
      (x.bits = 2047 * 2 ^ 52 ↔ 2 ^ 1024 - 2 ^ 970 ≤ d.toRat) := by
  have hdecimal := (Text.isNumber_of_mem_tokens ht hkind).isDecimal hmark
  obtain ⟨d, hd⟩ := hdecimal.exists_ofText?
  have hdenotes := Decimal.ofText?_eq_some_iff.1 hd
  have hround := d.bits_roundsTo
  have hvalue : value t.text = .ok (.float (d.toBinary64 false)) := by
    rw [value_eq_ok_iff_ofText?, Number.ofText?_of_isFloatForm hdecimal.marked?_bare
      (Number.isFloatForm_bare_iff.2 hform), Binary64.ofText?_eq_some_iff.2 (.unsigned hdenotes)]
    rfl
  refine ⟨d, d.toBinary64 false, fun d' => ?_, hvalue, fun p => ?_, hround.eq_infinity_iff⟩
  · exact ⟨fun h => h.unique hdenotes, fun h => h ▸ hdenotes⟩
  · exact ⟨fun h => h.unique hround, fun h => h ▸ hround⟩

theorem value_rounded_half_way :
    ∃ t ∈ Text.tokens "x=9_007_199_254_740_993.0_0e-0".toList, t.kind = .number ∧
      ¬ IsMarked t.text ∧ (∃ c ∈ t.text, c ∈ Number.floatSigns) ∧
      ∃ x, value t.text = .ok (.float x) ∧ x.bits = 0x4340000000000000 ∧
        ∀ p, Binary64.RoundsTo 9007199254740993 p ↔ p = x.bits := by
  have ht : (⟨.number, "9_007_199_254_740_993.0_0e-0".toList, ⟨⟨1, 2⟩, ⟨1, 30⟩⟩⟩ : Token) ∈
      Text.tokens "x=9_007_199_254_740_993.0_0e-0".toList := by decide +kernel
  have hmark : ¬ IsMarked "9_007_199_254_740_993.0_0e-0".toList :=
    marked?_eq_none_iff.1 (by decide +kernel)
  have hform : ∃ c ∈ "9_007_199_254_740_993.0_0e-0".toList, c ∈ Number.floatSigns :=
    ⟨'.', by decide, by decide⟩
  obtain ⟨d, x, hdenotes, hvalue, hround, -⟩ := value_rounded ht rfl hmark hform
  have hbits : value "9_007_199_254_740_993.0_0e-0".toList =
      .ok (.float ⟨false, 0x4340000000000000, by decide⟩) := by decide +kernel
  obtain rfl := (hdenotes ⟨900719925474099300, -2⟩).1 (Decimal.ofText?_eq_some_iff.1 (by decide +kernel))
  have hrat : Decimal.toRat ⟨900719925474099300, -2⟩ = 9007199254740993 := by
    norm_num [Decimal.toRat]
  rw [hrat] at hround
  refine ⟨_, ht, rfl, hmark, hform, x, hvalue, ?_, hround⟩
  obtain rfl : _ = x := Number.float.inj (Except.ok.inj (hbits.symm.trans hvalue))
  rfl

end NumberLiteral

end AngleLexer
