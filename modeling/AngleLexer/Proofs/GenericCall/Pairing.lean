import AngleLexer.GenericCall
import Mathlib.Data.List.Induction

/-!
# Pairs of angle brackets

The usual way to pair brackets reads from left to right and keeps a stack: a `<` goes on top of
it, a `>` takes the topmost `<` away and is its partner, and a `>` that finds the stack empty has
none. `openStack` is that stack, and `Pair` says which brackets are partners.

The search for generic calls reads the other way round and counts instead. Main statements:

* `beforeOpener?_map_length`: counting backwards from a `>` stops at its partner;
* `Pair.apart_or_around`: two pairs stand apart, or one of them around the other.
-/

namespace AngleLexer.GenericCall

/-! ## The stack -/

/-- What the kind at a position does to the stack of open brackets. -/
def stackStep (stack : List Nat) (entry : Kind × Nat) : List Nat :=
  match entry.1 with
  | .symbol .lt => entry.2 :: stack
  | .symbol .gt => stack.tail
  | _ => stack

/-- The positions of the `<` that are still open after a list of kinds was read from left to
right, the innermost first. -/
def openStack (ks : List Kind) : List Nat :=
  ks.zipIdx.foldl stackStep []

/-- Reading one more kind is one more step. -/
theorem openStack_concat (ks : List Kind) (k : Kind) :
    openStack (ks ++ [k]) = stackStep (openStack ks) (k, ks.length) := by
  simp [openStack, List.zipIdx_append]

/-- A step keeps what was on the stack, or puts the position of a `<` on top of it. -/
theorem mem_stackStep {stack : List Nat} {k : Kind} {i o : Nat} (h : o ∈ stackStep stack (k, i)) :
    o ∈ stack ∨ o = i ∧ k = .symbol .lt := by
  unfold stackStep at h
  split at h
  · rename_i hk
    rcases List.mem_cons.1 h with rfl | ho
    · exact Or.inr ⟨rfl, hk⟩
    · exact Or.inl ho
  · exact Or.inl (List.mem_of_mem_tail h)
  · exact Or.inl h

/-- Only where a `<` stands is a bracket open. -/
theorem getElem?_of_mem_openStack {ks : List Kind} {o : Nat} (h : o ∈ openStack ks) :
    ks[o]? = some (.symbol .lt) := by
  induction ks using List.reverseRecOn with
  | nil => cases h
  | append_singleton ks k ih =>
    rw [openStack_concat] at h
    rcases mem_stackStep h with ho | ⟨rfl, rfl⟩
    · have hlt := List.getElem?_eq_some_iff.1 (ih ho)
      rw [List.getElem?_append_left hlt.1]
      exact ih ho
    · exact List.getElem?_concat_length

/-- An open bracket stands in what was read. -/
theorem lt_length_of_mem_openStack {ks : List Kind} {o : Nat} (h : o ∈ openStack ks) :
    o < ks.length :=
  (List.getElem?_eq_some_iff.1 (getElem?_of_mem_openStack h)).1

/-- The brackets further down on the stack stand further to the left. -/
theorem openStack_pairwise (ks : List Kind) : (openStack ks).Pairwise (· > ·) := by
  induction ks using List.reverseRecOn with
  | nil => exact List.Pairwise.nil
  | append_singleton ks k ih =>
    rw [openStack_concat, stackStep]
    split
    · exact List.Pairwise.cons (fun o ho => lt_length_of_mem_openStack ho) ih
    · exact ih.tail
    · exact ih

/-- Reading on adds brackets from the new part only. -/
theorem mem_openStack_append {ks rest : List Kind} {o : Nat} (h : o ∈ openStack (ks ++ rest)) :
    o ∈ openStack ks ∨ ks.length ≤ o := by
  induction rest using List.reverseRecOn with
  | nil => exact Or.inl (by simpa using h)
  | append_singleton rest k ih =>
    rw [← List.append_assoc, openStack_concat] at h
    rcases mem_stackStep h with ho | ⟨rfl, -⟩
    · exact ih ho
    · exact Or.inr (by simp)

/-! ## Pairs -/

/-- The `>` at `j` closes the `<` at `o`. -/
structure Pair (ks : List Kind) (o j : Nat) : Prop where
  /-- a `>` stands at `j` -/
  close : ks[j]? = some (.symbol .gt)
  /-- the innermost bracket open before it is the one at `o` -/
  partner : (openStack (ks.take j)).head? = some o

namespace Pair

variable {ks : List Kind} {o j o' j' : Nat}

theorem mem_openStack (h : Pair ks o j) : o ∈ openStack (ks.take j) :=
  List.mem_of_head? h.partner

/-- A pair opens before it closes. -/
theorem opener_lt (h : Pair ks o j) : o < j := by
  have := lt_length_of_mem_openStack h.mem_openStack
  rw [List.length_take] at this
  omega

/-- A pair opens with a `<`. -/
theorem getElem?_opener (h : Pair ks o j) : ks[o]? = some (.symbol .lt) := by
  have := getElem?_of_mem_openStack h.mem_openStack
  rwa [List.getElem?_take_of_lt h.opener_lt] at this

/-- **Pairs never cross**: of two pairs, the one that closes later opens after the other has
closed, or stands around it. -/
theorem apart_or_around (h : Pair ks o j) (h' : Pair ks o' j') (hlt : j < j') :
    j < o' ∨ o' < o := by
  obtain ⟨hj, hgt⟩ := List.getElem?_eq_some_iff.1 h.close
  have hsplit : ks.take j' = ks.take (j + 1) ++ (ks.take j').drop (j + 1) := by
    conv_lhs => rw [← List.take_append_drop (j + 1) (ks.take j')]
    rw [List.take_take, Nat.min_eq_left hlt]
  have hmem := h'.mem_openStack
  rw [hsplit] at hmem
  rcases mem_openStack_append hmem with ho | ho
  · -- the bracket was open before the first pair closed, so it lies below the opener there
    rw [List.take_succ_eq_append_getElem hj, hgt, openStack_concat] at ho
    obtain ⟨below, hbelow⟩ := List.head?_eq_some_iff.1 h.partner
    have hdesc := openStack_pairwise (ks.take j)
    rw [hbelow] at ho hdesc
    exact Or.inr ((List.pairwise_cons.1 hdesc).1 o' ho)
  · rw [List.length_take] at ho
    omega

end Pair

/-! ## Counting backwards -/

/-- **The count finds the stack**: if `n` further `>` wait for their partners, counting backwards
stops at the bracket that lies `n` places below the top of the stack. -/
theorem beforeOpener?_map_length (n : Nat) (before : List Kind) :
    (beforeOpener? n before).map List.length = (openStack before.reverse)[n]? := by
  -- each kind that the count passes is the last one that the stack has read
  fun_induction beforeOpener? n before with
  | case1 n => rfl
  | case2 rest =>
    rw [List.reverse_cons, openStack_concat]
    simp [stackStep]
  | case3 rest n ih =>
    rw [List.reverse_cons, openStack_concat, ih]
    rfl
  | case4 n rest ih =>
    rw [List.reverse_cons, openStack_concat, ih]
    simp [stackStep]
  | case5 n k rest hlt hgt ih =>
    rw [List.reverse_cons, openStack_concat, ih, stackStep]
    split
    · exact absurd ‹_› hlt
    · exact absurd ‹_› hgt
    · rfl

/-- What counting backwards leaves over stands before a `<`. -/
theorem eq_append_of_beforeOpener? {n : Nat} {before outside : List Kind}
    (h : beforeOpener? n before = some outside) :
    ∃ inside, before = inside ++ .symbol .lt :: outside := by
  fun_induction beforeOpener? n before with
  | case1 => cases h
  | case2 rest => exact ⟨[], by cases h; rfl⟩
  | case3 rest n ih =>
    obtain ⟨inside, rfl⟩ := ih h
    exact ⟨.symbol .lt :: inside, rfl⟩
  | case4 n rest ih =>
    obtain ⟨inside, rfl⟩ := ih h
    exact ⟨.symbol .gt :: inside, rfl⟩
  | case5 n k rest _ _ ih =>
    obtain ⟨inside, rfl⟩ := ih h
    exact ⟨k :: inside, rfl⟩

end AngleLexer.GenericCall
