import AngleLexer.Proofs.Lookahead

/-!
# Longest prefixes

Many lexical rules list words and take the longest of them that a text starts with
(`LongestPrefix`). Two words in a row are found one after the other, if the second kind of word
begins with a character that the first kind does not hold (`LongestPrefix.append`).

How far such a rule looks beyond what it takes depends on how much must be added to a word to make
a longer one. If words can be approached by words in steps of a few characters (`LagsBy`), then of
the text behind the longest one no more than these few characters matter, and a text that stops like
it may stand in its place (`LongestPrefix.replace`).
-/

namespace AngleLexer

/-- Of the prefixes of a text that are words, the longest one has `n` characters. -/
structure LongestPrefix (IsWord : Text → Prop) (t : Text) (n : Nat) : Prop where
  /-- the text has so many characters -/
  le : n ≤ t.length
  /-- they make a word -/
  word : IsWord (t.take n)
  /-- no longer prefix is a word -/
  longest : ∀ s, IsWord s → s <+: t → s.length ≤ n

/-- Whatever lies between two words, as a prefix of the longer one, starts with a word that is at
most `k` characters shorter. -/
def LagsBy (k : Nat) (IsWord : Text → Prop) : Prop :=
  ∀ s p, IsWord s → p <+: s → (∃ v, IsWord v ∧ v <+: p) →
    ∃ q, IsWord q ∧ q <+: p ∧ p.length ≤ q.length + k

/-! ## Words in steps -/

namespace LagsBy

theorem mono {j k : Nat} {IsWord : Text → Prop} (h : LagsBy j IsWord) (hjk : j ≤ k) :
    LagsBy k IsWord := by
  intro s p hs hp hv
  obtain ⟨q, hq, hqp, hlength⟩ := h s p hs hp hv
  exact ⟨q, hq, hqp, by omega⟩

/-- If the second of two words in a row may be left out, the steps of both are those of the pair. -/
theorem append {k : Nat} {IsFirst IsSecond : Text → Prop} (hfirst : LagsBy k IsFirst)
    (hsecond : LagsBy k IsSecond) (hnil : IsSecond []) :
    LagsBy k fun s => ∃ a b, s = a ++ b ∧ IsFirst a ∧ IsSecond b := by
  rintro s p ⟨a, b, rfl, ha, hb⟩ hp ⟨v, ⟨c, d, rfl, hc, -⟩, hv⟩
  rcases Nat.le_total p.length a.length with hle | hle
  · -- inside the first word
    have hpa : p <+: a := List.prefix_of_prefix_length_le hp (List.prefix_append a b) hle
    obtain ⟨q, hq, hqp, hlength⟩ := hfirst a p ha hpa ⟨c, hc, (List.prefix_append c d).trans hv⟩
    exact ⟨q, ⟨q, [], (List.append_nil q).symm, hq, hnil⟩, hqp, hlength⟩
  · -- inside the second word
    obtain ⟨x, rfl⟩ := List.prefix_of_prefix_length_le (List.prefix_append a b) hp hle
    have hxb : x <+: b := (List.prefix_append_right_inj a).1 hp
    obtain ⟨q, hq, hqx, hlength⟩ := hsecond b x hb hxb ⟨[], hnil, List.nil_prefix⟩
    refine ⟨a ++ q, ⟨a, q, rfl, ha, hq⟩, (List.prefix_append_right_inj a).2 hqx, ?_⟩
    rw [List.length_append, List.length_append]
    omega

end LagsBy

/-! ## Longest words -/

namespace LongestPrefix

variable {IsWord : Text → Prop} {t : Text} {n m : Nat}

theorem unique (hn : LongestPrefix IsWord t n) (hm : LongestPrefix IsWord t m) : n = m := by
  have hle := hm.longest _ hn.word (List.take_prefix _ _)
  have hge := hn.longest _ hm.word (List.take_prefix _ _)
  rw [List.length_take_of_le hn.le] at hle
  rw [List.length_take_of_le hm.le] at hge
  exact Nat.le_antisymm hle hge

/-- Where no word but the empty one begins, the empty word is the longest. -/
theorem zero (hnil : IsWord []) (h : ∀ s, IsWord s → s <+: t → s = []) :
    LongestPrefix IsWord t 0 where
  le := Nat.zero_le _
  word := hnil
  longest := by
    intro s hs hp
    rw [h s hs hp]
    exact Nat.le_refl 0

/-- Behind a word stands nothing that no word holds, unless the word is the longest one. -/
theorem drop_of_append (h : LongestPrefix IsWord t n) {a b : Text} {c : Char} (ha : IsWord a)
    (hc : ∀ a, IsWord a → c ∉ a) (ht : a ++ c :: b <+: t) :
    a.length = n ∧ c :: b <+: t.drop n := by
  have hat : a <+: t := (List.prefix_append a (c :: b)).trans ht
  have hle := h.longest a ha hat
  rcases Nat.lt_or_eq_of_le hle with hlt | rfl
  · -- a shorter word would be followed by a character of the longest one
    have hac : a ++ [c] <+: t.take n := by
      refine List.prefix_of_prefix_length_le ?_ (List.take_prefix n t) ?_
      · exact List.IsPrefix.trans ⟨b, by simp⟩ ht
      · rw [List.length_take_of_le h.le, List.length_append, List.length_singleton]
        exact hlt
    exact absurd (hac.mem (by simp)) (hc _ h.word)
  · obtain ⟨u, rfl⟩ := ht
    rw [List.append_assoc, List.drop_left]
    exact ⟨rfl, List.prefix_append _ u⟩

/-- The longest pair of words is the longest first word with the longest second word behind it, if
no second word begins with a character of a first word. -/
theorem append {IsFirst IsSecond : Text → Prop} (hfirst : LongestPrefix IsFirst t n)
    (hsecond : LongestPrefix IsSecond (t.drop n) m)
    (hapart : ∀ c b, IsSecond (c :: b) → ∀ a, IsFirst a → c ∉ a) :
    LongestPrefix (fun s => ∃ a b, s = a ++ b ∧ IsFirst a ∧ IsSecond b) t (n + m) where
  le := by
    have hn := hfirst.le
    have hm := hsecond.le
    rw [List.length_drop] at hm
    omega
  word := ⟨t.take n, (t.drop n).take m, List.take_add, hfirst.word, hsecond.word⟩
  longest := by
    rintro s ⟨a, b, rfl, ha, hb⟩ hs
    rcases b with _ | ⟨c, b⟩
    · rw [List.append_nil] at hs ⊢
      exact Nat.le_add_right_of_le (hfirst.longest a ha hs)
    · obtain ⟨hlength, hdrop⟩ := hfirst.drop_of_append ha (hapart c b hb) hs
      rw [List.length_append, hlength]
      exact Nat.add_le_add_left (hsecond.longest _ hb hdrop) n

/-- **What stands behind the longest word** may be replaced by a text that stops like it, if longer
words are approached in small steps and hold no line feed. -/
theorem replace {v s : Text} {k : Nat} (h : LongestPrefix IsWord (v ++ s) v.length)
    (hlag : LagsBy k IsWord) (hk : k < lookahead) (hfeed : ∀ w, IsWord w → '\n' ∉ w)
    (hs : StopsLike s t) : LongestPrefix IsWord (v ++ t) v.length where
  le := by
    rw [List.length_append]
    exact Nat.le_add_right _ _
  word := by
    have hv := h.word
    rw [List.take_left] at hv ⊢
    exact hv
  longest := by
    intro w hw hwt
    refine Nat.not_lt.1 fun hlt => ?_
    have hv : IsWord v := by
      have hv := h.word
      rwa [List.take_left] at hv
    obtain ⟨x, rfl⟩ := List.prefix_of_prefix_length_le (List.prefix_append v t) hwt (Nat.le_of_lt hlt)
    have hxt : x <+: t := (List.prefix_append_right_inj v).1 hwt
    -- the longer word, as far as it can be seen, stands in front of `s` as well
    have hseen : v ++ x.take lookahead <+: v ++ s := by
      refine (List.prefix_append_right_inj v).2 (hs.agree _ ((List.take_prefix _ _).trans hxt) ?_ ?_)
      · exact List.length_take_le _ _
      · intro hmem
        exact hfeed _ hw (List.mem_append_right v (List.mem_of_mem_take hmem))
    obtain ⟨q, hq, hqp, hlength⟩ := hlag (v ++ x) (v ++ x.take lookahead) hw
      ((List.prefix_append_right_inj v).2 (List.take_prefix _ _)) ⟨v, hv, List.prefix_append _ _⟩
    have hqle := h.longest q hq (hqp.trans hseen)
    rw [List.length_append, List.length_take] at hlength
    have hx : x.take lookahead = x := List.take_of_length_le (by omega)
    rw [hx] at hseen
    exact absurd (h.longest _ hw hseen) (Nat.not_le.2 hlt)

end LongestPrefix

end AngleLexer
