import AngleLexer.Proofs.GenericCall.Outermost
import AngleLexer.Proofs.Reader.Tokens
import AngleLexer.Scanner.Session

/-!
# The labels of a scanner

A scanner reads a source twice. The first time it looks for the openers of generic calls and
remembers their indices; the second time it hands the tokens out, counts them, and labels those
whose count is one of the indices. As long as a parser asks for tokens only, the two readings stay
in step: the scanner that was asked `n` times `Follows` the reader after `n` tokens
(`Follows.advance`), so it hands out the tokens of the source, each opener with its label and
nothing else changed.
-/

namespace AngleLexer

namespace Scanner

/-! ## What is handed out -/

/-- The tokens of a source, the openers of generic calls with their label. -/
def labelled (source : Text) : List Token :=
  source.tokens.mapIdx fun k t =>
    if k ∈ GenericCall.openers source.kinds then { t with kind := .genericLt } else t

/-- What the request of a given number gets, counted from zero: one of the tokens, or the end of
the input after all of them. -/
def handed (source : Text) (k : Nat) : Token :=
  (labelled source)[k]?.getD (Reader.ofText source).tokens.2.endToken

theorem length_labelled (source : Text) : (labelled source).length = source.tokens.length :=
  List.length_mapIdx

theorem getElem?_labelled (source : Text) (k : Nat) :
    (labelled source)[k]? = source.tokens[k]?.map fun t =>
      if k ∈ GenericCall.openers source.kinds then { t with kind := .genericLt } else t :=
  List.getElem?_mapIdx

/-- An opener was read as a comparison. -/
theorem kind_of_mem_openers {source : Text} {k : Nat} {t : Token}
    (hk : k ∈ GenericCall.openers source.kinds) (ht : source.tokens[k]? = some t) :
    t.kind = .symbol .lt := by
  have hkind := GenericCall.getElem?_of_mem_openers hk
  rw [Text.kinds, List.getElem?_map, ht] at hkind
  exact Option.some.inj hkind

/-- A token carries the label exactly at the indices of the openers. -/
theorem kind_labelled_iff {source : Text} {k : Nat} {t : Token}
    (ht : (labelled source)[k]? = some t) :
    t.kind = .genericLt ↔ k ∈ GenericCall.openers source.kinds := by
  rw [getElem?_labelled] at ht
  obtain ⟨u, hu, rfl⟩ := Option.map_eq_some_iff.1 ht
  split
  · exact iff_of_true rfl ‹_›
  · exact iff_of_false (Reader.kind_of_mem_tokens (List.mem_of_getElem? hu)).2 ‹_›

/-- A token without the label was read as it is. -/
theorem mem_tokens_of_mem_labelled {source : Text} {t : Token} (ht : t ∈ labelled source)
    (hkind : t.kind ≠ .genericLt) : t ∈ source.tokens := by
  obtain ⟨k, hk⟩ := List.mem_iff_getElem?.1 ht
  have hnot := mt (kind_labelled_iff hk).2 hkind
  rw [getElem?_labelled] at hk
  obtain ⟨u, hu, rfl⟩ := Option.map_eq_some_iff.1 hk
  rw [if_neg hnot]
  exact List.mem_of_getElem? hu

/-- Only what comes after all tokens is the end of the input. -/
theorem isEnd_handed_iff {source : Text} {k : Nat} :
    (handed source k).isEnd = true ↔ source.tokens.length ≤ k := by
  unfold handed
  rw [← length_labelled]
  rcases hk : (labelled source)[k]? with _ | t
  · exact iff_of_true rfl (List.getElem?_eq_none_iff.1 hk)
  · refine iff_of_false ?_ (Nat.not_le.2 (List.getElem?_eq_some_iff.1 hk).1)
    rw [getElem?_labelled] at hk
    obtain ⟨u, hu, rfl⟩ := Option.map_eq_some_iff.1 hk
    have hend := (Reader.kind_of_mem_tokens (List.mem_of_getElem? hu)).1
    split <;> simp [Token.isEnd, hend]

theorem handed_of_length_le {source : Text} {k : Nat} (h : source.tokens.length ≤ k) :
    handed source k = (Reader.ofText source).tokens.2.endToken := by
  rw [← length_labelled] at h
  rw [handed, List.getElem?_eq_none h, Option.getD_none]

/-! ## One request -/

theorem advance_of_atEnd {s : Scanner} (h : s.atEnd = true) : s.advance = s := by
  rw [advance, if_pos h]

/-- Where no token is left, the end of the input becomes the current token. -/
theorem advance_of_isEnd {s : Scanner} (h : s.atEnd = false) (ht : s.reader.readToken.1.isEnd = true) :
    s.advance =
      { s with reader := s.reader.readToken.2, current := some s.reader.readToken.1 } := by
  simp [advance, accept, h, ht]

/-- A token is counted and becomes the current one. -/
theorem advance_of_token {s : Scanner} (h : s.atEnd = false)
    (ht : s.reader.readToken.1.isEnd = false) :
    s.advance = { s with
      reader := s.reader.readToken.2
      count := s.count + 1
      current := some (s.relabel s.reader.readToken.1) } := by
  simp [advance, accept, h, ht]

/-- What holds of a scanner that finds no token, and of one that finds a token if it holds of the
scanner behind that token, holds of every scanner. -/
theorem tokens_induction {motive : Scanner → Prop} (s : Scanner)
    (atEnd : ∀ s, s.readToken?.1 = none → motive s)
    (step : ∀ s t, s.readToken?.1 = some t → motive s.readToken?.2 → motive s) : motive s := by
  fun_induction tokens s with
  | case1 s _ h => exact atEnd s h
  | case2 s _ t h _ ih => exact step s t h ih

/-- A scanner whose count is the index of a token labels it as the source does. -/
theorem relabel_eq {source : Text} {s : Scanner} {t : Token}
    (hopeners : s.openers = GenericCall.openers source.kinds)
    (ht : source.tokens[s.count]? = some t) :
    (labelled source)[s.count]? = some (s.relabel t) := by
  rw [getElem?_labelled, ht, Option.map_some, relabel, hopeners]
  by_cases hk : s.count ∈ GenericCall.openers source.kinds
  · rw [if_pos hk, if_pos ⟨kind_of_mem_openers hk ht, hk⟩]
  · rw [if_neg hk, if_neg (fun h => hk h.2)]

/-! ## Staying in step -/

/-- The scanner was asked for `n` tokens of the source and for nothing else. -/
structure Follows (source : Text) (n : Nat) (s : Scanner) : Prop where
  /-- the openers are those of the source -/
  openers : s.openers = GenericCall.openers source.kinds
  /-- each token that was handed out was counted -/
  count : s.count = min n source.tokens.length
  /-- the others are still to be read, and reading them leads to the end of the source -/
  rest : s.reader.tokens = (source.tokens.drop n, (Reader.ofText source).tokens.2)
  /-- that end is reached when the end of the input is handed out -/
  final : source.tokens.length < n → s.reader = (Reader.ofText source).tokens.2
  /-- the current token is the one handed out last -/
  current : s.current = if n = 0 then none else some (handed source (n - 1))

namespace Follows

variable {source : Text} {n : Nat} {s : Scanner}

theorem start (source : Text) : Follows source 0 (ofText source) where
  openers := rfl
  count := (Nat.zero_min _).symm
  rest := rfl
  final := fun h => absurd h (Nat.not_lt_zero _)
  current := rfl

theorem atEnd_iff (h : Follows source n s) : s.atEnd = true ↔ source.tokens.length < n := by
  rw [atEnd, h.current]
  rcases n with _ | n
  · simp
  · rw [if_neg (Nat.succ_ne_zero n), Option.any_some, Nat.add_sub_cancel, isEnd_handed_iff,
      Nat.lt_succ_iff]

/-- **A request for a token keeps the scanner in step.** -/
theorem advance (h : Follows source n s) : Follows source (n + 1) s.advance := by
  rcases hend : s.atEnd with _ | _
  · have hn : n ≤ source.tokens.length := by
      rw [← Nat.not_lt, ← h.atEnd_iff, hend]
      exact Bool.false_ne_true
    have hrest := h.rest
    rcases ht : s.reader.readToken.1.isEnd with _ | _
    · -- another token
      rw [Reader.tokens_of_readToken ht] at hrest
      obtain ⟨hdrop, hfinal⟩ := Prod.mk.inj hrest
      have htoken : source.tokens[n]? = some s.reader.readToken.1 := by
        rw [← List.head?_drop, ← hdrop]
        rfl
      have hlt := (List.getElem?_eq_some_iff.1 htoken).1
      have hcount : s.count = n := by
        rw [h.count, Nat.min_eq_left hn]
      have hlabel : (labelled source)[n]? = some (s.relabel s.reader.readToken.1) :=
        hcount ▸ relabel_eq h.openers (hcount ▸ htoken)
      rw [advance_of_token hend ht]
      refine ⟨h.openers, ?_, ?_, fun hgt => absurd hgt (Nat.not_lt.2 hlt), ?_⟩
      · rw [hcount, Nat.min_eq_left hlt]
      · rw [← List.tail_drop, ← hdrop, ← hfinal]
        rfl
      · rw [if_neg (Nat.succ_ne_zero n), Nat.add_sub_cancel, handed, hlabel, Option.getD_some]
    · -- no token is left
      obtain ⟨htokens, htoken, hahead⟩ := Reader.tokens_of_isEnd ht
      rw [htokens] at hrest
      obtain ⟨hdrop, hfinal⟩ := Prod.mk.inj hrest
      have hle : source.tokens.length ≤ n := List.drop_eq_nil_iff.1 hdrop.symm
      rw [advance_of_isEnd hend ht]
      refine ⟨h.openers, ?_, ?_, fun _ => hfinal, ?_⟩
      · rw [h.count, Nat.min_eq_right hle, Nat.min_eq_right (Nat.le_succ_of_le hle)]
      · rw [Reader.tokens_of_ahead_eq_nil hahead, hfinal,
          List.drop_eq_nil_of_le (Nat.le_succ_of_le hle)]
      · rw [if_neg (Nat.succ_ne_zero n), Nat.add_sub_cancel, handed_of_length_le hle, htoken,
          hfinal]
  · -- the end of the input was handed out before
    have hlt := h.atEnd_iff.1 hend
    rw [advance_of_atEnd hend]
    refine ⟨h.openers, ?_, ?_, fun _ => h.final hlt, ?_⟩
    · rw [h.count, Nat.min_eq_right (Nat.le_of_lt hlt), Nat.min_eq_right (by omega)]
    · rw [h.rest, List.drop_eq_nil_of_le (Nat.le_of_lt hlt), List.drop_eq_nil_of_le (by omega)]
    · rw [h.current, if_neg (by omega), if_neg (Nat.succ_ne_zero n), handed_of_length_le (by omega),
        handed_of_length_le (by omega)]

/-! ## Many requests -/

theorem readKind (h : Follows source n s) :
    s.readKind = (((labelled source)[n]?.map Token.kind).getD .endOfInput, s.advance) := by
  have hcurrent := h.advance.current
  rw [if_neg (Nat.succ_ne_zero n), Nat.add_sub_cancel] at hcurrent
  rw [Scanner.readKind, hcurrent, handed]
  rcases (labelled source)[n]? with _ | t <;> rfl

theorem readToken? (h : Follows source n s) : s.readToken? = ((labelled source)[n]?, s.advance) := by
  have hcurrent := h.advance.current
  rw [if_neg (Nat.succ_ne_zero n), Nat.add_sub_cancel] at hcurrent
  rw [Scanner.readToken?]
  rcases hend : s.advance.atEnd with _ | _
  · have hlt : n < (labelled source).length := by
      rw [length_labelled, ← Nat.not_le, ← Nat.lt_succ_iff, ← h.advance.atEnd_iff, hend]
      exact Bool.false_ne_true
    rw [if_neg Bool.false_ne_true, hcurrent, handed, List.getElem?_eq_getElem hlt, Option.getD_some]
  · have hle := Nat.lt_succ_iff.1 (h.advance.atEnd_iff.1 hend)
    rw [if_pos rfl, List.getElem?_eq_none (length_labelled source ▸ hle)]

/-- Requests for tokens keep the scanner in step, and get the labelled tokens in order. -/
theorem run (h : Follows source n s) {qs : List Request} (hqs : ∀ q ∈ qs, q = .kind ∨ q = .token?) :
    Follows source (n + qs.length) (s.run qs).2 ∧
      ∀ k : Nat,
        (qs[k]? = some .kind → (s.run qs).1[k]? =
          some (.kind (((labelled source)[n + k]?.map Token.kind).getD .endOfInput))) ∧
        (qs[k]? = some .token? → (s.run qs).1[k]? = some (.token? (labelled source)[n + k]?)) := by
  induction qs generalizing n s with
  | nil => exact ⟨h, fun k => ⟨by simp, by simp⟩⟩
  | cons q qs ih =>
    obtain ⟨hq, hqs⟩ := List.forall_mem_cons.1 hqs
    have hstep : (s.serve q).2 = s.advance := by
      rcases hq with rfl | rfl
      · rw [serve, h.readKind]
        rfl
      · rw [serve, h.readToken?]
        rfl
    obtain ⟨hrun, hreplies⟩ := ih (hstep ▸ h.advance) hqs
    refine ⟨?_, ?_⟩
    · rw [List.length_cons, Nat.add_comm qs.length, ← Nat.add_assoc]
      exact hrun
    · intro k
      rcases k with _ | k
      · constructor
        · intro hq
          obtain rfl := Option.some.inj hq
          rw [Scanner.run, serve, h.readKind]
          rfl
        · intro hq
          obtain rfl := Option.some.inj hq
          rw [Scanner.run, serve, h.readToken?]
          rfl
      · rw [show n + (k + 1) = n + 1 + k by omega]
        exact hreplies k

/-- Reading on to the end collects the labelled tokens that are left. -/
theorem tokens (h : Follows source n s) :
    s.tokens.1 = (labelled source).drop n ∧
      ∃ m, source.tokens.length < m ∧ Follows source m s.tokens.2 := by
  -- on the number of tokens that are left
  induction hleft : source.tokens.length - n generalizing n s with
  | zero =>
    have hle : source.tokens.length ≤ n := by omega
    have hnone : (labelled source)[n]? = none :=
      List.getElem?_eq_none (length_labelled source ▸ hle)
    rw [tokens_of_readToken?_eq_none (by rw [h.readToken?, hnone]), h.readToken?]
    refine ⟨(List.drop_eq_nil_of_le (length_labelled source ▸ hle)).symm, n + 1, ?_, h.advance⟩
    exact Nat.lt_succ_of_le hle
  | succ left ih =>
    have hlt : n < (labelled source).length := by
      rw [length_labelled]
      omega
    obtain ⟨htokens, hend⟩ := ih h.advance (by omega)
    rw [tokens_of_readToken?_eq_some (by rw [h.readToken?, List.getElem?_eq_getElem hlt]),
      h.readToken?]
    refine ⟨?_, hend⟩
    rw [htokens]
    exact (List.drop_eq_getElem_cons hlt).symm

/-- Right after a token was handed out, it is the current one and its index is known. -/
theorem index?_succ {k : Nat} (h : Follows source (k + 1) s) (hk : k < source.tokens.length) :
    s.current = (labelled source)[k]? ∧ s.index? = some k := by
  constructor
  · rw [h.current, if_neg (Nat.succ_ne_zero k), Nat.add_sub_cancel, handed,
      List.getElem?_eq_getElem (length_labelled source ▸ hk), Option.getD_some]
  · have hend : ¬ s.atEnd = true := mt h.atEnd_iff.1 (by omega)
    rw [index?, if_neg hend, h.count, Nat.min_eq_left hk]

end Follows

/-- **A scanner hands out the tokens of its source**, and changes nothing about them but the kind of
those `<` that the search found, each of which was read as a comparison. So it is whether the tokens
are collected or asked for one by one, by their kind or as a whole: the reply to request `k` is
token `k`, whose index is known right after it. The openers never change, and in the end the
comments are those that a reader meets. -/
theorem tokens_relabeled (source : Text) :
    (ofText source).tokens.1 = labelled source ∧
    (∀ (k : Nat) (t : Token), (labelled source)[k]? = some t →
      (t.kind = .genericLt ↔ k ∈ GenericCall.openers source.kinds)) ∧
    (∀ k ∈ GenericCall.openers source.kinds, source.kinds[k]? = some (.symbol .lt)) ∧
    (ofText source).tokens.2.openers = GenericCall.openers source.kinds ∧
    (ofText source).tokens.2.comments = (Reader.ofText source).tokens.2.comments ∧
    ∀ qs : List Request, (∀ q ∈ qs, q = .kind ∨ q = .token?) →
      (∀ k : Nat,
        (qs[k]? = some .kind → ((ofText source).run qs).1[k]? =
          some (.kind (((labelled source)[k]?.map Token.kind).getD .endOfInput))) ∧
        (qs[k]? = some .token? → ((ofText source).run qs).1[k]? =
          some (.token? (labelled source)[k]?))) ∧
      (∀ k, qs.length = k + 1 → k < source.tokens.length →
        ((ofText source).run qs).2.current = (labelled source)[k]? ∧
        ((ofText source).run qs).2.index? = some k) ∧
      ((ofText source).run qs).2.openers = GenericCall.openers source.kinds ∧
      (source.tokens.length < qs.length →
        ((ofText source).run qs).2.comments = (Reader.ofText source).tokens.2.comments) := by
  obtain ⟨htokens, m, hm, hlast⟩ := (Follows.start source).tokens
  refine ⟨htokens, ?_, ?_, hlast.openers, ?_, ?_⟩
  · intro k t ht
    exact kind_labelled_iff ht
  · intro k hk
    exact GenericCall.getElem?_of_mem_openers hk
  · rw [comments, hlast.final hm]
  · intro qs hqs
    obtain ⟨hrun, hreplies⟩ := (Follows.start source).run hqs
    rw [Nat.zero_add] at hrun
    refine ⟨?_, ?_, hrun.openers, ?_⟩
    · intro k
      have hreply := hreplies k
      rwa [Nat.zero_add] at hreply
    · intro k hk hlt
      rw [hk] at hrun
      exact hrun.index?_succ hlt
    · intro hlt
      rw [comments, hrun.final hlt]

end Scanner

end AngleLexer
