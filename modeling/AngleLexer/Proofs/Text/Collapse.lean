import AngleLexer.Text.Basic
import Mathlib.Data.List.SplitBy

/-!
# One blank for a run of white space

A text falls into stretches, in turn of white space and of other characters (`Text.stretches`). To
collapse it is to write one blank for each stretch of white space (`Text.collapse_eq_oneSpaced`). So a
text that is cut anywhere but inside white space is collapsed part by part (`Text.collapse_append`), and
what is collapsed is on one line.
-/

namespace AngleLexer.Text

/-- The longest stretches of a text that consist of white space only or have none, in order. -/
def stretches (t : Text) : List Text :=
  t.splitBy fun c d => isSpace c == isSpace d

/-- The text with one blank for every stretch of white space. -/
def oneSpaced (t : Text) : Text :=
  t.stretches.flatMap fun s => if s.all isSpace then [' '] else s

/-! ## Collapsing -/

/-- A text that is not cut inside white space is collapsed part by part. -/
theorem collapse_append {s t : Text}
    (h : ∀ c ∈ s.getLast?, ∀ d ∈ t.head?, isSpace c = true → isSpace d = false) :
    collapse (s ++ t) = collapse s ++ collapse t := by
  induction s with
  | nil => rfl
  | cons c s ih =>
    rw [List.cons_append, collapse, collapse]
    cases s with
    | nil =>
      have hhead : isSpace c = true → t.head?.any isSpace = false := by
        cases t <;> simp_all
      by_cases hc : isSpace c = true <;> simp [hc, hhead, collapse]
    | cons d s =>
      have hrest := ih (by simpa using h)
      rw [hrest]
      by_cases hc : isSpace c = true <;> by_cases hd : isSpace d = true <;> simp [hc, hd]

theorem collapse_of_noSpace {s : Text} (h : ∀ c ∈ s, isSpace c = false) : collapse s = s := by
  induction s with
  | nil => rfl
  | cons c s ih =>
    obtain ⟨hc, hs⟩ := List.forall_mem_cons.1 h
    simp [collapse, hc, ih hs]

theorem collapse_of_spaces {s : Text} (hne : s ≠ []) (h : ∀ c ∈ s, isSpace c = true) :
    collapse s = [' '] := by
  induction s with
  | nil => exact absurd rfl hne
  | cons c s ih =>
    obtain ⟨hc, hs⟩ := List.forall_mem_cons.1 h
    cases s with
    | nil => simp [collapse, hc]
    | cons d s =>
      have hd : isSpace d = true := hs d List.mem_cons_self
      rw [collapse, if_pos hc, List.head?_cons, Option.any_some, if_pos hd]
      exact ih (List.cons_ne_nil d s) hs

/-- The first character is kept, or a blank stands for it. -/
theorem head?_collapse (c : Char) (t : Text) :
    (collapse (c :: t)).head? = some (if isSpace c then ' ' else c) := by
  induction t generalizing c with
  | nil => by_cases hc : isSpace c = true <;> simp [collapse, hc]
  | cons d t ih =>
    by_cases hc : isSpace c = true
    · by_cases hd : isSpace d = true
      · rw [collapse, if_pos hc, List.head?_cons, Option.any_some, if_pos hd, ih, if_pos hd, if_pos hc]
      · simp [collapse, hc, hd]
    · simp [collapse, hc]

/-- Blanks are the only white space that is left. -/
theorem eq_blank_of_mem_collapse {t : Text} {c : Char} (h : c ∈ collapse t) (hc : isSpace c = true) :
    c = ' ' := by
  induction t with
  | nil => cases h
  | cons d t ih =>
    rw [collapse] at h
    split at h
    · split at h
      · exact ih h
      · exact (List.mem_cons.1 h).elim id ih
    · rename_i hd
      rcases List.mem_cons.1 h with rfl | h
      · exact absurd hc hd
      · exact ih h

/-! ## Stretches -/

theorem isSpace_eq_of_isChain {c : Char} {s : Text}
    (h : (c :: s).IsChain fun a b => (isSpace a == isSpace b) = true) :
    ∀ d ∈ s, isSpace d = isSpace c := by
  induction s generalizing c with
  | nil => simp
  | cons d s ih =>
    obtain ⟨hcd, hs⟩ := List.isChain_cons_cons.1 h
    have hd : isSpace c = isSpace d := by simpa using hcd
    refine List.forall_mem_cons.2 ⟨hd.symm, fun b hb => ?_⟩
    rw [ih hs b hb, hd]

/-- A stretch is collapsed to one blank, or it is left as it is. -/
theorem collapse_stretch {t s : Text} (h : s ∈ t.stretches) :
    collapse s = if s.all isSpace then [' '] else s := by
  have hne := List.ne_nil_of_mem_splitBy h
  obtain ⟨c, rest, rfl⟩ := List.exists_cons_of_ne_nil hne
  have hsame := isSpace_eq_of_isChain (List.isChain_of_mem_splitBy h)
  by_cases hc : isSpace c = true
  · have hall : ∀ d ∈ c :: rest, isSpace d = true :=
      List.forall_mem_cons.2 ⟨hc, fun d hd => (hsame d hd).trans hc⟩
    rw [if_pos (List.all_eq_true.2 hall), collapse_of_spaces hne hall]
  · rw [Bool.not_eq_true] at hc
    have hnone : ∀ d ∈ c :: rest, isSpace d = false :=
      List.forall_mem_cons.2 ⟨hc, fun d hd => (hsame d hd).trans hc⟩
    rw [if_neg (by simp [hc]), collapse_of_noSpace hnone]

theorem collapse_flatten {ss : List Text} (hne : [] ∉ ss)
    (h : ss.IsChain fun a b => ∃ ha hb, (isSpace (a.getLast ha) == isSpace (b.head hb)) = false) :
    collapse ss.flatten = ss.flatMap collapse := by
  induction ss with
  | nil => rfl
  | cons s ss ih =>
    obtain ⟨hs, hss⟩ := not_or.1 (List.mem_cons.not.1 hne)
    rw [List.flatten_cons, List.flatMap_cons, ← ih hss h.tail]
    apply collapse_append
    cases ss with
    | nil => simp
    | cons u ss =>
      obtain ⟨ha, hb, hdiffer⟩ := (List.isChain_cons_cons.1 h).1
      obtain ⟨d, rest, rfl⟩ := List.exists_cons_of_ne_nil hb
      intro c hc e he hspace
      obtain rfl : d = e := Option.some.inj he
      rw [List.getLast?_eq_getLast_of_ne_nil ha, Option.mem_some_iff] at hc
      have hother : ¬ isSpace c = isSpace d := by simpa [hc] using hdiffer
      simpa [hspace] using hother

/-- **To collapse a text** is to write one blank for each stretch of white space. -/
theorem collapse_eq_oneSpaced (t : Text) : collapse t = oneSpaced t := by
  have hflat : t.stretches.flatten = t := List.flatten_splitBy _ t
  calc
    collapse t = collapse t.stretches.flatten := by rw [hflat]
    _ = t.stretches.flatMap collapse :=
      collapse_flatten (List.nil_notMem_splitBy _ t)
        (List.isChain_getLast_head_splitBy (fun c d => isSpace c == isSpace d) t)
    _ = oneSpaced t := List.flatMap_congr fun _ hs => collapse_stretch hs

end AngleLexer.Text
