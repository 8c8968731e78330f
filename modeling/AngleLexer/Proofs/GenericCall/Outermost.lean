import AngleLexer.Proofs.GenericCall.Pairing

/-!
# The openers of outermost calls

A pair of angle brackets **closes a call** when a parenthesis follows its `>` at once, unless the
`>` belongs to the raw form `<`, `!`, `>`, `(`. Such a pair may stand inside another one; only the
outermost of them are openers. That is a statement about all pairs of a list of kinds, while the
search jumps over everything between an opener and its `>`. The two agree
(`mem_openersFromBack_iff`), so the result of the search holds just the outermost openers.

The search walks towards the front, so the proof follows the list as it grows at its end:
`closing_concat` and `closing_append_call` say which pairs come in with the last kinds.
-/

namespace AngleLexer.GenericCall

/-- The `>` at `j` belongs to the raw form of a call. -/
def RawAt (ks : List Kind) (j : Nat) : Prop :=
  ∃ i, i + 2 = j ∧ ks[i]? = some (.symbol .lt) ∧ ks[i + 1]? = some (.symbol .bang) ∧
    ks[i + 2]? = some (.symbol .gt) ∧ ks[i + 3]? = some (.symbol .leftParen)

/-- The brackets at `o` and `j` are a pair, and close a call. -/
structure Closing (ks : List Kind) (o j : Nat) : Prop extends Pair ks o j where
  /-- the arguments of the call follow at once -/
  follow : ks[j + 1]? = some (.symbol .leftParen)
  /-- the call is not in the raw form -/
  notRaw : ¬ RawAt ks j

/-- The bracket at `o` opens a pair that closes a call and lies in no other such pair. -/
def Outermost (ks : List Kind) (o : Nat) : Prop :=
  ∃ j, Closing ks o j ∧ ∀ o' j', Closing ks o' j' → j < j' → ¬ o' < o

theorem Closing.succ_lt_length {ks : List Kind} {o j : Nat} (h : Closing ks o j) :
    j + 1 < ks.length :=
  (List.getElem?_eq_some_iff.1 h.follow).1

/-! ## Which pairs a longer list has -/

theorem pair_append {ks rest : List Kind} {o j : Nat} (hj : j < ks.length) :
    Pair (ks ++ rest) o j ↔ Pair ks o j := by
  have htake : (ks ++ rest).take j = ks.take j := List.take_append_of_le_length (Nat.le_of_lt hj)
  constructor
  · rintro ⟨hclose, hpartner⟩
    rw [List.getElem?_append_left hj] at hclose
    rw [htake] at hpartner
    exact ⟨hclose, hpartner⟩
  · rintro ⟨hclose, hpartner⟩
    refine ⟨?_, ?_⟩
    · rw [List.getElem?_append_left hj]
      exact hclose
    · rw [htake]
      exact hpartner

theorem rawAt_append {ks rest : List Kind} {j : Nat} (hj : j + 1 < ks.length) :
    RawAt (ks ++ rest) j ↔ RawAt ks j := by
  refine exists_congr fun i => and_congr_right ?_
  intro hi
  rw [List.getElem?_append_left (by omega), List.getElem?_append_left (by omega),
    List.getElem?_append_left (by omega), List.getElem?_append_left (by omega)]

/-- What comes later changes nothing about the pairs before it. -/
theorem closing_append {ks rest : List Kind} {o j : Nat} (hj : j + 1 < ks.length) :
    Closing (ks ++ rest) o j ↔ Closing ks o j := by
  constructor
  · rintro ⟨hpair, hfollow, hraw⟩
    rw [List.getElem?_append_left hj] at hfollow
    exact ⟨(pair_append (by omega)).1 hpair, hfollow, mt (rawAt_append hj).2 hraw⟩
  · rintro ⟨hpair, hfollow, hraw⟩
    refine ⟨(pair_append (by omega)).2 hpair, ?_, mt (rawAt_append hj).1 hraw⟩
    rw [List.getElem?_append_left hj]
    exact hfollow

/-- Unless a `>` and a parenthesis are the last kinds, the last kind closes no call. -/
theorem closing_concat {ks : List Kind} {k : Kind} {o j : Nat}
    (h : k = .symbol .leftParen → ks.getLast? ≠ some (.symbol .gt)) :
    Closing (ks ++ [k]) o j ↔ Closing ks o j := by
  constructor
  · intro hc
    have hlt := hc.succ_lt_length
    rw [List.length_append, List.length_singleton] at hlt
    rcases Nat.lt_or_ge (j + 1) ks.length with hj | hj
    · exact (closing_append hj).1 hc
    · have hlast : j + 1 = ks.length := by omega
      have hk : k = .symbol .leftParen := by
        have hfollow := hc.follow
        rw [hlast, List.getElem?_concat_length] at hfollow
        exact Option.some.inj hfollow
      have hclose := hc.close
      rw [List.getElem?_append_left (by omega), ← Nat.add_sub_cancel (n := j) (m := 1), hlast,
        ← List.getLast?_eq_getElem?] at hclose
      exact absurd hclose (h hk)
  · intro hc
    exact (closing_append hc.succ_lt_length).2 hc

/-- The `>` of the last call belongs to the raw form if the two kinds before it do. -/
theorem rawAt_append_call {ks : List Kind} :
    RawAt (ks ++ [.symbol .gt, .symbol .leftParen]) ks.length ↔
      [.symbol .lt, .symbol .bang] <:+ ks := by
  constructor
  · rintro ⟨i, hi, hlt, hbang, -, -⟩
    rw [List.getElem?_append_left (by omega)] at hlt hbang
    refine ⟨ks.take i, ?_⟩
    have hrest : ks.drop i = [.symbol .lt, .symbol .bang] := by
      apply List.ext_getElem?
      intro n
      rw [List.getElem?_drop]
      rcases n with _ | _ | n
      · exact hlt
      · exact hbang
      · rw [List.getElem?_eq_none (by omega)]
        rfl
    rw [← hrest, List.take_append_drop]
  · rintro ⟨front, rfl⟩
    exact ⟨front.length, by simp, by simp, by simp, by simp, by simp⟩

/-- A `>` with a parenthesis behind it closes a call if it has a partner and the call is not in
the raw form. -/
theorem closing_append_call {ks : List Kind} {o j : Nat} :
    Closing (ks ++ [.symbol .gt, .symbol .leftParen]) o j ↔
      Closing ks o j ∨ (j = ks.length ∧ (openStack ks).head? = some o ∧
        ¬ [.symbol .lt, .symbol .bang] <:+ ks) := by
  constructor
  · intro hc
    have hlt := hc.succ_lt_length
    rw [List.length_append] at hlt
    simp only [List.length_cons, List.length_nil] at hlt
    rcases Nat.lt_trichotomy (j + 1) ks.length with hj | hj | hj
    · exact Or.inl ((closing_append hj).1 hc)
    · -- the last kind of `ks` is followed by the `>`, not by a parenthesis
      have hfollow := hc.follow
      rw [hj] at hfollow
      simp at hfollow
    · obtain rfl : j = ks.length := by omega
      refine Or.inr ⟨rfl, ?_, mt rawAt_append_call.2 hc.notRaw⟩
      simpa using hc.partner
  · rintro (hc | ⟨rfl, hpartner, hraw⟩)
    · exact (closing_append hc.succ_lt_length).2 hc
    · exact ⟨⟨by simp, by simpa using hpartner⟩, by simp, mt rawAt_append_call.1 hraw⟩

/-! ## Which openers a longer list has -/

theorem outermost_congr {ks ks' : List Kind} (h : ∀ o j, Closing ks o j ↔ Closing ks' o j)
    (o : Nat) : Outermost ks o ↔ Outermost ks' o := by
  simp only [Outermost, h]

/-- A pair that closes a call before a `<` stands entirely before it. -/
theorem Closing.of_lt_length {outer inside : List Kind} {o j : Nat}
    (h : Closing (outer ++ .symbol .lt :: inside) o j) (hj : j < outer.length) :
    Closing outer o j := by
  rcases Nat.lt_or_ge (j + 1) outer.length with hlt | hge
  · exact (closing_append hlt).1 h
  · obtain hlen : j + 1 = outer.length := by omega
    have hfollow := h.follow
    rw [hlen] at hfollow
    simp at hfollow

/-- **A call hides what lies inside it.** If the last kinds close a call whose opener follows
`outer`, then that opener is outermost, and the other outermost ones are those of `outer`. -/
theorem outermost_append_call {outer inside : List Kind} {o : Nat}
    (hpartner : (openStack (outer ++ .symbol .lt :: inside)).head? = some outer.length)
    (hraw : ¬ [.symbol .lt, .symbol .bang] <:+ outer ++ .symbol .lt :: inside) :
    Outermost (outer ++ .symbol .lt :: inside ++ [.symbol .gt, .symbol .leftParen]) o ↔
      o = outer.length ∨ Outermost outer o := by
  have hclosing : ∀ o' j',
      Closing (outer ++ .symbol .lt :: inside ++ [.symbol .gt, .symbol .leftParen]) o' j' ↔
        Closing (outer ++ .symbol .lt :: inside) o' j' ∨
          j' = (outer ++ .symbol .lt :: inside).length ∧ o' = outer.length := by
    intro o' j'
    rw [closing_append_call, hpartner, Option.some.injEq]
    simp only [hraw, not_false_eq_true, and_true, eq_comm]
  have hlast := (hclosing outer.length _).2 (Or.inr ⟨rfl, rfl⟩)
  -- by laminarity an earlier pair lies before the new one or inside it
  have hsplit : ∀ o' j', Closing (outer ++ .symbol .lt :: inside) o' j' →
      Closing outer o' j' ∨ outer.length < o' := by
    intro o' j' hc
    have hj := hc.succ_lt_length
    rcases ((hclosing o' j').2 (Or.inl hc)).apart_or_around hlast.toPair (by omega) with hlt | hlt
    · exact Or.inl (hc.of_lt_length hlt)
    · exact Or.inr hlt
  constructor
  · rintro ⟨j, hc, hout⟩
    rcases (hclosing o j).1 hc with hc' | ⟨-, ho⟩
    · rcases hsplit o j hc' with hc'' | hin
      · refine Or.inr ⟨j, hc'', ?_⟩
        intro o' j' h' hlt
        apply hout o' j' _ hlt
        rw [List.append_assoc]
        exact (closing_append h'.succ_lt_length).2 h'
      · exact absurd hin (hout _ _ hlast (by have := hc'.succ_lt_length; omega))
    · exact Or.inl ho
  · rintro (rfl | ⟨j, hc, hout⟩)
    · refine ⟨_, hlast, ?_⟩
      intro o' j' h' hlt
      rcases (hclosing o' j').1 h' with h'' | ⟨-, rfl⟩
      · have := h''.succ_lt_length
        omega
      · exact Nat.lt_irrefl _
    · have ho := hc.opener_lt
      have hj := hc.succ_lt_length
      refine ⟨j, ?_, ?_⟩
      · rw [List.append_assoc]
        exact (closing_append hj).2 hc
      · intro o' j' h' hlt
        rcases (hclosing o' j').1 h' with h'' | ⟨-, rfl⟩
        · rcases hsplit o' j' h'' with h₃ | hin
          · exact hout o' j' h₃ hlt
          · omega
        · omega

/-! ## The search -/

/-- **The search finds the outermost openers**, in a list that is given in reverse order. -/
theorem mem_openersFromBack_iff (ks : List Kind) (o : Nat) :
    o ∈ openersFromBack ks ↔ Outermost ks.reverse o := by
  fun_induction openersFromBack ks with
  | case1 before ih =>
    -- the raw form closes no call
    have hrev : (.symbol .leftParen :: .symbol .gt :: .symbol .bang :: .symbol .lt ::
        before).reverse = before.reverse ++ [.symbol .lt] ++ [.symbol .bang] ++
          [.symbol .gt, .symbol .leftParen] := by
      simp
    rw [ih, hrev]
    apply outermost_congr
    intro o' j'
    rw [closing_append_call, closing_concat (by simp), closing_concat (by simp)]
    have : ¬ ¬ [.symbol .lt, .symbol .bang] <:+
        before.reverse ++ [Kind.symbol .lt] ++ [Kind.symbol .bang] := by
      simp
    simp only [this, and_false, or_false]
  | case2 before hraw outside hb ih =>
    obtain ⟨inside, rfl⟩ := eq_append_of_beforeOpener? hb
    have hrev : (inside ++ .symbol .lt :: outside).reverse =
        outside.reverse ++ .symbol .lt :: inside.reverse := by
      simp
    have hpartner := beforeOpener?_map_length 0 (inside ++ .symbol .lt :: outside)
    rw [hb, Option.map_some, ← List.head?_eq_getElem?, hrev, ← List.length_reverse] at hpartner
    have hform : ¬ [.symbol .lt, .symbol .bang] <:+
        outside.reverse ++ .symbol .lt :: inside.reverse := by
      rintro ⟨front, hfront⟩
      rw [← hrev] at hfront
      exact hraw front.reverse (by simpa using List.reverse_eq_iff.1 hfront.symm)
    rw [List.mem_cons, ih, List.reverse_cons, List.reverse_cons, List.append_assoc, hrev,
      List.singleton_append, outermost_append_call hpartner.symm hform, List.length_reverse]
  | case3 before hraw hb ih =>
    -- a `>` without a partner closes nothing
    have hnone := beforeOpener?_map_length 0 before
    rw [hb, Option.map_none, ← List.head?_eq_getElem?] at hnone
    rw [ih, List.reverse_cons, List.reverse_cons, List.append_assoc]
    apply outermost_congr
    intro o' j'
    rw [List.singleton_append, closing_append_call, ← hnone]
    simp
  | case4 k before _ hcall ih =>
    rw [ih, List.reverse_cons]
    apply outermost_congr
    intro o' j'
    refine (closing_concat ?_).symm
    intro hk hlast
    rw [List.getLast?_reverse] at hlast
    obtain ⟨rest, hrest⟩ := List.head?_eq_some_iff.1 hlast
    exact hcall rest hk hrest
  | case5 =>
    constructor
    · intro h
      cases h
    · rintro ⟨j, hc, -⟩
      exact absurd hc.succ_lt_length (Nat.not_lt_zero _)

/-- The search finds openers from the last to the first. -/
theorem openersFromBack_pairwise (ks : List Kind) : (openersFromBack ks).Pairwise (· > ·) := by
  fun_induction openersFromBack ks with
  | case1 before ih => exact ih
  | case2 before _ outside _ ih =>
    refine List.Pairwise.cons ?_ ih
    intro o ho
    obtain ⟨j, hc, -⟩ := (mem_openersFromBack_iff outside o).1 ho
    have hlt := Nat.lt_trans hc.opener_lt (Nat.lt_of_succ_lt hc.succ_lt_length)
    rwa [List.length_reverse] at hlt
  | case3 before _ _ ih => exact ih
  | case4 k before _ _ ih => exact ih
  | case5 => exact List.Pairwise.nil

theorem openers_pairwise (ks : List Kind) : (openers ks).Pairwise (· < ·) :=
  List.pairwise_reverse.2 (openersFromBack_pairwise ks.reverse)

theorem mem_openers_iff {ks : List Kind} {o : Nat} : o ∈ openers ks ↔ Outermost ks o := by
  rw [openers, List.mem_reverse, mem_openersFromBack_iff, List.reverse_reverse]

/-- An opener is a `<`. -/
theorem getElem?_of_mem_openers {ks : List Kind} {o : Nat} (h : o ∈ openers ks) :
    ks[o]? = some (.symbol .lt) := by
  obtain ⟨j, hc, -⟩ := mem_openers_iff.1 h
  exact hc.getElem?_opener

/-- **The openers are those of the outermost calls**: the search returns, in increasing order and
without repetition, exactly the partners of the `>` that close a call and lie in no other such
pair. -/
theorem openers_eq_outermost (ks : List Kind) :
    (openers ks).Pairwise (· < ·) ∧
      ∀ o, o ∈ openers ks ↔
        ∃ j, Closing ks o j ∧ ∀ o' j', Closing ks o' j' → j < j' → ¬ o' < o :=
  ⟨openers_pairwise ks, fun _ => mem_openers_iff⟩

end AngleLexer.GenericCall
