import AngleLexer.Fault.Diagnostic
import AngleLexer.Proofs.Position

/-!
# From positions to bytes

A position counts lines and characters, and a label counts bytes. Between the two stands the text in
front of a position (`Text.upTo`): the bytes in front of the position are the bytes of that text
(`Text.byteOffset_eq`). In the file that was read, the text in front of a position is what was read
on the way there (`Text.upTo_start_after`), however many bytes its characters have and whatever its
lines end with.
-/

namespace AngleLexer

/-- From one line further down, a text leads one line further down. -/
theorem Position.after_nextLine (p : Position) (t : Text) :
    (⟨p.line + 1, p.column⟩ : Position).after t = ⟨(p.after t).line + 1, (p.after t).column⟩ := by
  induction t generalizing p with
  | nil => rfl
  | cons c t ih =>
    rw [after_cons, after_cons, ← ih]
    unfold advance
    split <;> rfl

namespace Text

/-! ## Lines -/

/-- A text without a line feed belongs to the first line of what follows. -/
theorem lines_append {s t line : Text} {ls : List Text} (hs : '\n' ∉ s)
    (ht : lines t = line :: ls) : lines (s ++ t) = (s ++ line) :: ls := by
  induction s with
  | nil => exact ht
  | cons c s ih =>
    obtain ⟨hc, hs⟩ := not_or.1 (List.mem_cons.not.1 hs)
    rw [List.cons_append, lines, if_neg (Ne.symm hc), ih hs]
    rfl

/-- Every text has a first line. -/
theorem exists_lines_eq_cons (t : Text) : ∃ line ls, lines t = line :: ls := by
  rcases hlines : lines t with _ | ⟨line, ls⟩
  · have ht := flatten_lines t
    rw [hlines] at ht
    rw [← ht] at hlines
    cases hlines
  · exact ⟨line, ls, rfl⟩

/-! ## The text in front of a position -/

/-- The text in front of a position in a file; of a position outside, as far as there is text. -/
def upTo (file : Text) (p : Position) : Text :=
  match p.line with
  | 0 => file
  | n + 1 =>
    match file.lines[n]? with
    | none => file
    | some line => (file.lines.take n).flatten ++ line.take p.column

/-- **The bytes in front of a position** are those of the text in front of it. -/
theorem byteOffset_eq (file : Text) (p : Position) :
    file.byteOffset p = (file.upTo p).utf8Length := by
  rcases p with ⟨_ | n, k⟩
  · rfl
  · rcases hline : file.lines[n]? with _ | line <;> simp [byteOffset, upTo, hline]

/-- On the first line, as many characters are in front of a position as its column says. -/
theorem upTo_firstLine {s : Text} (hs : '\n' ∉ s) (t : Text) : (s ++ t).upTo ⟨1, s.length⟩ = s := by
  obtain ⟨line, ls, ht⟩ := exists_lines_eq_cons t
  simp [upTo, lines_append hs ht]

/-- Further down, the first line is in front of a position as a whole. -/
theorem upTo_nextLine {s : Text} (hs : '\n' ∉ s) (t : Text) {p : Position} (hp : 0 < p.line) :
    (s ++ '\n' :: t).upTo ⟨p.line + 1, p.column⟩ = s ++ '\n' :: t.upTo p := by
  have hlines : lines (s ++ '\n' :: t) = (s ++ ['\n']) :: lines t :=
    lines_append hs (by rw [lines, if_pos rfl])
  obtain ⟨n, hn⟩ := Nat.exists_eq_add_of_lt hp
  rw [Nat.zero_add] at hn
  rcases hline : (lines t)[n]? with _ | line <;> simp [upTo, hlines, hn, hline]

/-- The text that leads from a column of the first line to a position is in front of it, together
with what is left of that column. -/
theorem upTo_after {s : Text} (hs : '\n' ∉ s) (before after : Text) :
    (s ++ (before ++ after)).upTo ((⟨1, s.length⟩ : Position).after before) = s ++ before := by
  -- `s` is what of the line was read already, so a line feed starts anew with none
  induction before generalizing s with
  | nil =>
    rw [List.append_nil]
    exact upTo_firstLine hs after
  | cons c before ih =>
    rw [Position.after_cons, Position.advance]
    split
    · rename_i hc
      subst hc
      have hline : 0 < ((⟨1, 0⟩ : Position).after before).line := by
        rw [← Position.start, Position.start_after]
        exact Nat.lt_of_lt_of_le Nat.zero_lt_one (Nat.le_add_right _ _)
      rw [Position.after_nextLine ⟨1, 0⟩, List.cons_append, upTo_nextLine hs _ hline]
      exact congrArg (s ++ '\n' :: ·) (ih List.not_mem_nil)
    · rename_i hc
      have hs' : '\n' ∉ s ++ [c] := by
        rw [List.mem_append, List.mem_singleton, not_or]
        exact ⟨hs, Ne.symm hc⟩
      have hih := ih hs'
      rw [List.length_append, List.append_assoc, List.append_assoc] at hih
      exact hih

/-- **In the file that was read**, the text in front of a position is the text that leads there. -/
theorem upTo_start_after (before after : Text) :
    (before ++ after).upTo (Position.start.after before) = before :=
  upTo_after List.not_mem_nil before after

end Text

end AngleLexer
