import AngleLexer.Proofs.Fault.Extent

/-!
# Labels stay within any file

A diagnostic may be shown with another file than the one in which the fault was found, say after an
edit. The positions of the fault may then lie outside the file: behind the end of a line, or below the
last line. The text in front of such a position is as much as there is. It has all lines above the
position (`Text.linesAbove_isPrefix_upTo`) and nothing below its line (`Text.upTo_isPrefix_linesAbove`),
so a later position has at least as much of the file in front of it (`Text.upTo_mono`). Hence the two
ends of a label come in their order, neither of them inside a character or behind the end of the file
(`Fault.range_within`).
-/

namespace AngleLexer

namespace Text

/-- The first lines of a file. -/
def linesAbove (file : Text) (n : Nat) : Text := (file.lines.take n).flatten

theorem linesAbove_mono (file : Text) {m n : Nat} (h : m ≤ n) :
    file.linesAbove m <+: file.linesAbove n := by
  obtain ⟨k, rfl⟩ := Nat.exists_eq_add_of_le h
  simp [linesAbove, List.take_add]

theorem linesAbove_isPrefix (file : Text) (n : Nat) : file.linesAbove n <+: file := by
  have h := List.prefix_append (file.linesAbove n) (file.lines.drop n).flatten
  rwa [linesAbove, ← List.flatten_append, List.take_append_drop, flatten_lines] at h

theorem linesAbove_of_length_le {file : Text} {n : Nat} (h : file.lines.length ≤ n) :
    file.linesAbove n = file := by
  rw [linesAbove, List.take_of_length_le h, flatten_lines]

/-- The lines above a position are in front of it. -/
theorem linesAbove_isPrefix_upTo (file : Text) (n k : Nat) :
    file.linesAbove n <+: file.upTo ⟨n + 1, k⟩ := by
  cases hline : file.lines[n]? with
  | none => simp [upTo, hline, linesAbove_isPrefix]
  | some line => simp [upTo, hline, linesAbove]

/-- Nothing below the line of a position is in front of it. -/
theorem upTo_isPrefix_linesAbove (file : Text) (n k : Nat) :
    file.upTo ⟨n + 1, k⟩ <+: file.linesAbove (n + 1) := by
  cases hline : file.lines[n]? with
  | none =>
    have hlength := Nat.le_succ_of_le (List.getElem?_eq_none_iff.1 hline)
    simp [upTo, hline, linesAbove_of_length_le hlength]
  | some line => simp [upTo, hline, linesAbove, List.take_add_one, List.take_prefix]

/-- The text in front of a position is a beginning of the file. -/
theorem upTo_isPrefix (file : Text) (p : Position) : file.upTo p <+: file := by
  obtain ⟨_ | n, k⟩ := p
  · exact List.prefix_refl file
  · exact (upTo_isPrefix_linesAbove file n k).trans (linesAbove_isPrefix file (n + 1))

/-- On one line, more columns have more text in front of them. -/
theorem upTo_mono_column (file : Text) (n : Nat) {j k : Nat} (h : j ≤ k) :
    file.upTo ⟨n + 1, j⟩ <+: file.upTo ⟨n + 1, k⟩ := by
  cases hline : file.lines[n]? with
  | none => simp [upTo, hline]
  | some line => simp [upTo, hline, List.take_prefix_take_left h]

/-- **A later position** has at least as much of the file in front of it. -/
theorem upTo_mono (file : Text) {p q : Position} (h : p ≤ q) (hline : 1 ≤ p.line) :
    file.upTo p <+: file.upTo q := by
  obtain ⟨_ | n, j⟩ := p
  · cases hline
  obtain ⟨_ | m, k⟩ := q
  · exact upTo_isPrefix file _
  rcases Position.le_iff.1 h with hbelow | ⟨hsame, hcolumn⟩
  · -- all of the line of `p` is above the line of `q`
    have habove := linesAbove_mono file (Nat.lt_of_succ_lt_succ hbelow)
    exact (upTo_isPrefix_linesAbove file n j).trans (habove.trans (linesAbove_isPrefix_upTo file m k))
  · obtain rfl := Nat.succ.inj hsame
    exact upTo_mono_column file n hcolumn

end Text

/-- **Labels stay within any file.** Whatever the file, two positions in their order have byte offsets
in their order, neither of them behind the end of the file nor inside a character. So the label of a
broken string literal or comment whose span is in order marks a stretch of the file. -/
theorem Fault.range_within (file : Text) {p q : Position} (hle : p ≤ q) (hline : 1 ≤ p.line) :
    file.byteOffset p ≤ file.byteOffset q ∧ file.byteOffset q ≤ file.bytes.size ∧
    file.IsBoundary (file.byteOffset p) ∧ file.IsBoundary (file.byteOffset q) ∧
    ∀ (f : Fault) (files : List Text) (i : Nat), f.span = ⟨p, q⟩ → f.cause ≠ .unknownCharacter →
      files[i]? = some file →
        ∃ (l : Label) (before stretch after : Text), (f.diagnostic files i).labels = [l] ∧
          l.file = i ∧ l.start = file.byteOffset p ∧ l.stop = file.byteOffset q ∧
          file = before ++ stretch ++ after ∧ l.start = before.bytes.size ∧
          l.bytes file = stretch.bytes := by
  have hmono := Text.upTo_mono file hle hline
  have hend := Text.upTo_isPrefix file q
  simp only [Text.byteOffset_eq, Text.size_bytes]
  refine ⟨Text.utf8Length_le_of_prefix hmono, Text.utf8Length_le_of_prefix hend,
    Text.isBoundary_of_isPrefix (Text.upTo_isPrefix file p), Text.isBoundary_of_isPrefix hend, ?_⟩
  intro f files i hspan hcause hfile
  have hrange : f.range file = (file.byteOffset p, file.byteOffset q) := by
    cases hf : f.cause with
    | unknownCharacter => exact absurd hf hcause
    | openString | openComment => simp [range, hf, hspan]
  obtain ⟨stretch, hstretch⟩ := hmono
  obtain ⟨after, hafter⟩ := hend
  rw [← hstretch] at hafter
  refine ⟨_, file.upTo p, stretch, after, labels_diagnostic hfile f, rfl, ?_, ?_, hafter.symm, ?_, ?_⟩
  all_goals simp only [hrange, Text.byteOffset_eq]
  rw [Label.bytes, ← hstretch]
  exact Text.extract_bytes ⟨after, hafter⟩

/-- Both positions lie outside the file, one behind the end of its line and one below the last line. -/
theorem Fault.range_within_outside :
    (⟨1, 9⟩ : Position) ≤ ⟨4, 2⟩ ∧ 1 ≤ (⟨1, 9⟩ : Position).line ∧
      ∃ l, ((⟨.openComment, "/* a".toList, ⟨⟨1, 9⟩, ⟨4, 2⟩⟩⟩ : Fault).diagnostic
          ["é\n€".toList] 0).labels = [l] ∧ l.start = 3 ∧ l.stop = 6 ∧
        ∃ before stretch after : Text, "é\n€".toList = before ++ stretch ++ after ∧
          l.bytes "é\n€".toList = stretch.bytes := by
  have hle : (⟨1, 9⟩ : Position) ≤ ⟨4, 2⟩ := Position.le_iff.2 (Or.inl (by decide))
  have hline : 1 ≤ (⟨1, 9⟩ : Position).line := Nat.le_refl 1
  obtain ⟨-, -, -, -, hlabel⟩ := range_within "é\n€".toList hle hline
  obtain ⟨l, before, stretch, after, hlabels, -, hstart, hstop, hfile, -, hbytes⟩ :=
    hlabel ⟨.openComment, "/* a".toList, ⟨⟨1, 9⟩, ⟨4, 2⟩⟩⟩ ["é\n€".toList] 0 rfl nofun rfl
  have hp : Text.byteOffset "é\n€".toList ⟨1, 9⟩ = 3 := by decide
  have hq : Text.byteOffset "é\n€".toList ⟨4, 2⟩ = 6 := by decide
  exact ⟨hle, hline, l, hlabels, hstart.trans hp, hstop.trans hq, before, stretch, after, hfile, hbytes⟩

end AngleLexer
