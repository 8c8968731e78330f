import AngleLexer.Position
import Mathlib.Data.List.Induction

/-!
# Text moves positions forward

Every character leads to a later position, whether it starts a new line or not. So the order of
positions is the order in which a text is read (`lt_after`), and the position at the end of a text can
be read off the text as a whole (`start_after`): its lines are the line feeds, and its column is what
follows the last of them.

A text that is read in two parts leads where it leads as a whole. So of two offsets into a text the
greater one has the later position (`after_take_lt`), since what stands between them is read on the way,
and a position tells the offset it belongs to (`after_take_injective`). How far a text can lead is bounded
by its characters (`after_within`). These laws make up `text_moves_forward`.
-/

namespace AngleLexer

namespace Position

/-! ## The order -/

theorem lt_iff {p q : Position} :
    p < q ↔ p.line < q.line ∨ p.line = q.line ∧ p.column < q.column := by
  change (compare p.line q.line).then (compare p.column q.column) = .lt ↔ _
  rw [Ordering.then_eq_lt, Nat.compare_eq_lt, Nat.compare_eq_eq, Nat.compare_eq_lt]

theorem le_iff {p q : Position} :
    p ≤ q ↔ p.line < q.line ∨ p.line = q.line ∧ p.column ≤ q.column := by
  change ((compare p.line q.line).then (compare p.column q.column)).isLE = true ↔ _
  simp only [Ordering.isLE_then_iff_or, Nat.isLE_compare, Nat.compare_eq_lt, Nat.compare_eq_eq]

theorem lt_irrefl (p : Position) : ¬p < p := by
  rw [lt_iff]
  omega

theorem le_of_lt {p q : Position} (h : p < q) : p ≤ q := by
  rw [lt_iff] at h
  rw [le_iff]
  omega

theorem lt_trans {p q r : Position} (h₁ : p < q) (h₂ : q < r) : p < r := by
  rw [lt_iff] at *
  omega

/-- A character leads to a later position. -/
theorem lt_advance (p : Position) (c : Char) : p < p.advance c := by
  rw [lt_iff, advance]
  split
  · exact Or.inl (Nat.lt_succ_self _)
  · exact Or.inr ⟨rfl, Nat.lt_succ_self _⟩

/-- **A text that is not empty leads to a later position.** -/
theorem lt_after {t : Text} (p : Position) (h : t ≠ []) : p < p.after t := by
  induction t generalizing p with
  | nil => exact absurd rfl h
  | cons c t ih =>
    rw [after_cons]
    rcases t with _ | ⟨d, t⟩
    · exact lt_advance p c
    · exact lt_trans (lt_advance p c) (ih _ (List.cons_ne_nil d t))

theorem le_after (p : Position) (t : Text) : p ≤ p.after t := by
  rcases t with _ | ⟨c, t⟩
  · exact le_iff.2 (Or.inr ⟨rfl, Nat.le_refl _⟩)
  · exact le_of_lt (lt_after p (List.cons_ne_nil c t))

/-- Only the empty text stays where it is. -/
theorem eq_after_iff (p : Position) (t : Text) : p = p.after t ↔ t = [] := by
  constructor
  · intro hstay
    by_contra hne
    have hlt := lt_after p hne
    rw [← hstay] at hlt
    exact lt_irrefl p hlt
  · rintro rfl
    rfl

/-! ## How far a text leads -/

/-- A character counts one line or one column, and neither counter goes up by more. -/
theorem advance_within (p : Position) (c : Char) :
    (p.advance c).line ≤ p.line + 1 ∧ (p.advance c).column ≤ p.column + 1 := by
  rw [advance]
  split
  · exact ⟨Nat.le_refl _, Nat.zero_le _⟩
  · exact ⟨Nat.le_succ _, Nat.le_refl _⟩

/-- **Neither counter goes up by more than the characters of the text.** So counters of a machine word
that have room for that many more have room for every place on the way. -/
theorem after_within (p : Position) (t : Text) :
    (p.after t).line ≤ p.line + t.length ∧ (p.after t).column ≤ p.column + t.length := by
  induction t generalizing p with
  | nil => exact ⟨Nat.le_refl _, Nat.le_refl _⟩
  | cons c t ih =>
    obtain ⟨hline, hcolumn⟩ := advance_within p c
    obtain ⟨hlines, hcolumns⟩ := ih (p.advance c)
    rw [after_cons, List.length_cons]
    omega

/-! ## Offsets -/

/-- **A greater offset has a later position.** -/
theorem after_take_lt (p : Position) (t : Text) {j k : Nat} (h : j < k) (hk : k ≤ t.length) :
    p.after (t.take j) < p.after (t.take k) := by
  obtain ⟨d, rfl⟩ := Nat.exists_eq_add_of_lt h
  -- the text up to the greater offset goes on behind the smaller one
  rw [Nat.add_assoc, List.take_add, after_append]
  refine lt_after _ (List.ne_nil_of_length_pos ?_)
  rw [List.length_take, List.length_drop]
  omega

/-- The offsets of a text are in the order of their positions. -/
theorem after_take_lt_iff (p : Position) (t : Text) {j k : Nat} (hj : j ≤ t.length)
    (hk : k ≤ t.length) : p.after (t.take j) < p.after (t.take k) ↔ j < k := by
  constructor
  · intro hlt
    rcases Nat.lt_trichotomy j k with h | rfl | h
    · exact h
    · exact absurd hlt (lt_irrefl _)
    · exact absurd (lt_trans hlt (after_take_lt p t h hj)) (lt_irrefl _)
  · intro h
    exact after_take_lt p t h hk

/-- No two offsets of a text have one position. -/
theorem after_take_injective (p : Position) (t : Text) :
    Function.Injective fun k : Fin (t.length + 1) => p.after (t.take k) := by
  intro j k heq
  have hsame : p.after (t.take j) = p.after (t.take k) := heq
  have hj := Nat.le_of_lt_succ j.isLt
  have hk := Nat.le_of_lt_succ k.isLt
  have hnlt : ¬j.val < k.val := by
    rw [← after_take_lt_iff p t hj hk, hsame]
    exact lt_irrefl _
  have hngt : ¬k.val < j.val := by
    rw [← after_take_lt_iff p t hk hj, hsame]
    exact lt_irrefl _
  exact Fin.ext (by omega)

/-! ## The position at the end of a text -/

/-- The position at the end of a text that starts a source: one line for every line feed, and the
characters after the last line feed. -/
def endOf (t : Text) : Position :=
  ⟨1 + t.count '\n', (t.reverse.takeWhile (· != '\n')).length⟩

theorem endOf_concat (t : Text) (c : Char) : endOf (t ++ [c]) = (endOf t).advance c := by
  unfold advance endOf
  split
  · rename_i hc
    simp [hc, Nat.add_assoc]
  · rename_i hc
    simp [hc]

/-- **A position tells how much was read**, in lines and in characters of the last line. -/
theorem start_after (t : Text) : start.after t = endOf t := by
  induction t using List.reverseRecOn with
  | nil => rfl
  | append_singleton t c ih =>
    rw [after_append, ih, endOf_concat]
    rfl

end Position

/-- The span of a text is empty only if the text is. -/
theorem Span.isEmpty_ofText_iff (p : Position) (t : Text) :
    (Span.ofText p t).isEmpty = true ↔ t = [] := by
  rw [Span.isEmpty, decide_eq_true_iff]
  exact p.eq_after_iff t

/-- **Text moves positions forward.** Two texts one after the other lead where they lead together. No
text leads back, and only the empty one stays where it is, so that its span alone is empty. The offsets
of a text are in the order of their positions, and no two of them have one position. Neither counter
goes up by more than the characters that were read. -/
theorem Position.text_moves_forward :
    (∀ (p : Position) (s t : Text), p.after (s ++ t) = (p.after s).after t) ∧
    (∀ (p : Position) (s : Text), p ≤ p.after s ∧ (p = p.after s ↔ s = []) ∧
      ((Span.ofText p s).isEmpty = true ↔ s = [])) ∧
    (∀ (t : Text) (j k : Fin (t.length + 1)),
      start.after (t.take j) < start.after (t.take k) ↔ j < k) ∧
    (∀ t : Text, Function.Injective fun k : Fin (t.length + 1) => start.after (t.take k)) ∧
    ∀ (p : Position) (s : Text),
      (p.after s).line ≤ p.line + s.length ∧ (p.after s).column ≤ p.column + s.length := by
  refine ⟨after_append, ?_, ?_, after_take_injective start, after_within⟩
  · intro p s
    exact ⟨le_after p s, eq_after_iff p s, Span.isEmpty_ofText_iff p s⟩
  · intro t j k
    exact after_take_lt_iff start t (Nat.le_of_lt_succ j.isLt) (Nat.le_of_lt_succ k.isLt)

end AngleLexer
