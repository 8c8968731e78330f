import AngleLexer.Text.Radix
import Mathlib.Data.Nat.Digits.Lemmas

/-!
# What a numeral denotes

A numeral is read digit by digit from the left (`Radix.natOf?`). In positional notation each digit
counts as often as the digits right of it can make numbers (`Radix.valueOf`). The two agree
(`Radix.natOf?_eq_some_iff`): a text is a numeral exactly if it has a digit and nothing else, and
then it is read as the number that it denotes. So what is written in base sixteen reads back
(`Radix.natOf?_hexOfNat`).
-/

namespace AngleLexer

namespace Radix

/-- What a character is worth as a digit; nothing, if it is none. -/
def worth (r : Radix) (c : Char) : Nat := (r.digit? c).getD 0

/-- The number that digits denote in positional notation, the last one being that of the ones. -/
def valueOf (r : Radix) (digits : Text) : Nat := Nat.ofDigits r.base (digits.reverse.map r.worth)

theorem one_lt_base (r : Radix) : 1 < r.base := by
  cases r <;> decide

theorem worth_lt (r : Radix) (c : Char) : r.worth c < r.base := by
  rcases hd : r.digit? c with _ | d
  · rw [worth, hd]
    exact Nat.zero_lt_of_lt r.one_lt_base
  · rw [worth, hd]
    exact of_decide_eq_true (Option.filter_eq_some_iff.1 hd).2

/-! ## Positional notation -/

@[simp] theorem valueOf_nil (r : Radix) : r.valueOf [] = 0 := rfl

theorem valueOf_append (r : Radix) (s t : Text) :
    r.valueOf (s ++ t) = r.valueOf s * r.base ^ t.length + r.valueOf t := by
  rw [valueOf, List.reverse_append, List.map_append, Nat.ofDigits_append, List.length_map,
    List.length_reverse, ← valueOf, ← valueOf, Nat.add_comm, Nat.mul_comm]

@[simp] theorem valueOf_singleton (r : Radix) (c : Char) : r.valueOf [c] = r.worth c :=
  Nat.ofDigits_singleton

theorem valueOf_cons (r : Radix) (c : Char) (t : Text) :
    r.valueOf (c :: t) = r.worth c * r.base ^ t.length + r.valueOf t := by
  rw [← List.singleton_append, valueOf_append, valueOf_singleton]

/-- A numeral of so many digits stays below that power of the base. -/
theorem valueOf_lt (r : Radix) (t : Text) : r.valueOf t < r.base ^ t.length := by
  have hlt : ∀ d ∈ t.reverse.map r.worth, d < r.base := by
    intro d hd
    obtain ⟨c, -, rfl⟩ := List.mem_map.1 hd
    exact r.worth_lt c
  have hlength : (t.reverse.map r.worth).length = t.length := by
    rw [List.length_map, List.length_reverse]
  rw [← hlength]
  exact Nat.ofDigits_lt_base_pow_length r.one_lt_base hlt

/-! ## Reading a numeral -/

/-- Reading digits behind a number that was read already moves that number to the left. -/
theorem foldlM_digit_eq_some_iff {r : Radix} {t : Text} {read n : Nat} :
    t.foldlM (fun n c => (r.digit? c).map (n * r.base + ·)) read = some n ↔
      (∀ c ∈ t, r.isDigit c = true) ∧ read * r.base ^ t.length + r.valueOf t = n := by
  -- every digit makes another number of those read, so the induction is for any of them
  induction t generalizing read with
  | nil => simp
  | cons c t ih =>
    rw [List.foldlM_cons, List.forall_mem_cons]
    rcases hd : r.digit? c with _ | d
    · simp [isDigit, hd]
    · have hworth : r.worth c = d := by
        rw [worth, hd]
        rfl
      have hmove : (read * r.base + d) * r.base ^ t.length + r.valueOf t =
          read * r.base ^ (c :: t).length + r.valueOf (c :: t) := by
        rw [valueOf_cons, hworth, List.length_cons, Nat.pow_succ']
        ring
      rw [Option.map_some, Option.bind_eq_bind, Option.bind_some, ih, hmove]
      simp [isDigit, hd]

/-- **A text is read as a numeral** exactly if it consists of digits, of at least one, and then as
the number that they denote. -/
theorem natOf?_eq_some_iff {r : Radix} {t : Text} {n : Nat} :
    r.natOf? t = some n ↔ t ≠ [] ∧ (∀ c ∈ t, r.isDigit c = true) ∧ r.valueOf t = n := by
  rw [natOf?]
  rcases t with _ | ⟨c, t⟩
  · simp
  · rw [if_neg (by simp), foldlM_digit_eq_some_iff, Nat.zero_mul, Nat.zero_add]
    exact (and_iff_right (List.cons_ne_nil c t)).symm

/-! ## Writing in base sixteen -/

theorem digitChar_hexadecimal :
    ∀ d < 16, hexadecimal.isDigit d.digitChar = true ∧ hexadecimal.worth d.digitChar = d := by
  decide

/-- **What is written in base sixteen** reads back as the number that was written. -/
theorem natOf?_hexOfNat (n : Nat) : hexadecimal.natOf? (Text.hexOfNat n) = some n := by
  induction n using Nat.strong_induction_on with
  | _ n ih =>
    rcases Nat.lt_or_ge n 16 with hlt | hge
    · obtain ⟨hdigit, hworth⟩ := digitChar_hexadecimal n hlt
      rw [Text.hexOfNat, Nat.toDigits_of_lt_base hlt, natOf?_eq_some_iff]
      exact ⟨List.cons_ne_nil _ _, List.forall_mem_singleton.2 hdigit, hworth⟩
    · obtain ⟨hdigit, hworth⟩ := digitChar_hexadecimal (n % 16) (Nat.mod_lt n (by decide))
      obtain ⟨-, hdigits, hvalue⟩ := natOf?_eq_some_iff.1 (ih (n / 16) (by omega))
      rw [Text.hexOfNat, Nat.toDigits_of_base_le (by decide) hge, ← Text.hexOfNat,
        natOf?_eq_some_iff]
      refine ⟨by simp, ?_, ?_⟩
      · intro c hc
        rcases List.mem_append.1 hc with hc | hc
        · exact hdigits c hc
        · exact List.mem_singleton.1 hc ▸ hdigit
      · rw [valueOf_append, hvalue, valueOf_singleton, hworth]
        exact Nat.div_add_mod' n 16

end Radix

end AngleLexer
