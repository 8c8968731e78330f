import AngleLexer.Proofs.Scanner.Coherence
import AngleLexer.Proofs.Scanner.Joined
import AngleLexer.Proofs.Text.Collapse
import AngleLexer.Scanner.Context

/-!
# The caret stands under the current token

A message shows the source in one line, with a caret below it. The text before the current token and the
text from it on are collapsed and cut each on its own, so the line shows a stretch of the collapsed
source only if the current token does not begin inside white space. It never does: a token begins with
another character, the end of the input has nothing behind it, and raw characters without a token begin
where the source begins. One request keeps that up (`Account.Apart.note`), so it holds in every session,
and the pointer is what the collapsed source says (`Scanner.pointer_session`).
-/

namespace AngleLexer

namespace Reader

/-- The next token stands in the source where it begins. -/
theorem drop_tokenStart (r : Reader) :
    r.source.drop r.tokenStart = r.readToken.1.text ++ r.readToken.2.ahead := by
  obtain ⟨skipped, hconsumed, -, -⟩ := r.exists_skipped_readToken
  have hstart : r.tokenStart = (r.consumed ++ skipped).length := by
    rw [tokenStart, hconsumed]
    exact Nat.sub_eq_of_eq_add List.length_append
  rw [← source_readToken, source, hconsumed, hstart, List.append_assoc, List.drop_left]

/-- There is no white space where the next token begins. -/
theorem isSpace_tokenStart (r : Reader) :
    ∀ c ∈ (r.source.drop r.tokenStart).head?, isSpace c = false := by
  rw [drop_tokenStart]
  cases hend : r.readToken.1.isEnd with
  | true =>
    obtain ⟨-, htoken, hahead⟩ := tokens_of_isEnd hend
    simp [htoken, hahead, endToken]
  | false =>
    have hmem : r.readToken.1 ∈ r.tokens.1 := by
      rw [tokens_of_readToken hend]
      exact List.mem_cons_self
    obtain ⟨c, rest, htext, hc⟩ := exists_cons_of_mem_tokens hmem
    simp [htext, hc]

end Reader

namespace Scanner

/-- The current token does not begin inside white space. -/
def Account.Apart (a : Account) : Prop :=
  a.start = 0 ∨ ∀ c ∈ (a.source.drop a.start).head?, isSpace c = false

variable {a : Account} {s : Scanner}

theorem Account.Apart.read (h : a.Apart) (hs : Coherent a s) (ended : Bool) : (a.read s ended).Apart := by
  cases hended : a.ended with
  | true => simpa [Apart, Account.read, hended] using h
  | false =>
    have hstart := s.reader.isSpace_tokenStart
    rw [hs.source_eq] at hstart
    simpa [Apart, Account.read, hended] using Or.inr hstart

/-- **One request** does not move the beginning of the current token into white space. -/
theorem Account.Apart.note (h : a.Apart) (hs : Coherent a s) (q : Request) : (a.note s q).Apart := by
  cases q with
  | kind | token? => exact h.read hs _
  | tokens => simp [Apart, Account.note]
  | char? => exact h
  | restart source => exact Or.inl rfl

theorem Account.Apart.track (h : a.Apart) (hs : Coherent a s) (qs : List Request) :
    (a.track s qs).Apart := by
  induction qs generalizing a s with
  | nil => exact h
  | cons q qs ih => exact ih (h.note hs q) (hs.serve q)

/-- So the source is collapsed in two parts. -/
theorem Account.Apart.oneSpaced_eq (h : a.Apart) :
    a.source.oneSpaced =
      Text.oneSpaced (a.source.take a.start) ++ Text.oneSpaced (a.source.drop a.start) := by
  simp only [← Text.collapse_eq_oneSpaced]
  rw [← Text.collapse_append, List.take_append_drop]
  intro c hc d hd _
  cases h with
  | inl hstart =>
    rw [hstart] at hc
    cases hc
  | inr hnext => exact hnext d hd

/-! ## The line and the caret -/

/-- The part of a text around a place, with as many as twenty characters on either side of it, and a
mark at each end where more of the text was cut off. -/
def window (t : Text) (p : Nat) : Text :=
  (if 20 < p then "...".toList else []) ++ (t.take (min t.length (p + 20))).drop (p - 20) ++
    (if 20 < t.length - p then "...".toList else [])

/-- The column of the place in its window: behind a mark there are twenty characters in front of it. -/
def windowColumn (p : Nat) : Nat := if p ≤ 20 then p else 23

theorem window_append (l r : Text) :
    window (l ++ r) l.length =
      (if 20 < l.length then "...".toList else []) ++ (l.drop (l.length - 20) ++ r.take 20) ++
        (if 20 < r.length then "...".toList else []) := by
  have htake : (l ++ r).take (min (l ++ r).length (l.length + 20)) = l ++ r.take 20 := by
    rw [Nat.min_comm, ← List.take_eq_take_min, List.take_length_add_append]
  have hlength : (l ++ r).length - l.length = r.length := by simp
  rw [window, htake, hlength, List.drop_append_of_le_length (Nat.sub_le _ _)]

theorem keepEnd_eq (l : Text) :
    keepEnd l = (if shownWidth < l.length then cutMark else []) ++ l.drop (l.length - shownWidth) := by
  by_cases h : shownWidth < l.length
  · simp [keepEnd, h]
  · simp [keepEnd, h, Nat.sub_eq_zero_of_le (Nat.not_lt.1 h)]

theorem keepStart_eq (r : Text) :
    keepStart r = r.take shownWidth ++ (if shownWidth < r.length then cutMark else []) := by
  by_cases h : shownWidth < r.length
  · simp [keepStart, h]
  · simp [keepStart, h, List.take_of_length_le (Nat.not_lt.1 h)]

/-- Two texts, each cut on its own, are the window of the place between them. -/
theorem keepEnd_append_keepStart (l r : Text) :
    keepEnd l ++ keepStart r = window (l ++ r) l.length := by
  simp only [keepEnd_eq, keepStart_eq, window_append, List.append_assoc]
  rfl

theorem length_keepEnd (l : Text) : (keepEnd l).length = windowColumn l.length := by
  have hmark : cutMark.length = 3 := rfl
  by_cases h : shownWidth < l.length
  · simp only [keepEnd_eq, if_pos h, List.length_append, List.length_drop, hmark]
    simp only [shownWidth, windowColumn] at h ⊢
    rw [if_neg (Nat.not_le.2 h)]
    omega
  · rw [keepEnd, if_neg h]
    exact (if_pos (Nat.not_lt.1 h)).symm

/-- In the window of a place, the character of the place stands in its column. -/
theorem window_windowColumn (l : Text) {r : Text} {c : Char} (h : r.head? = some c) :
    (window (l ++ r) l.length)[windowColumn l.length]? = some c := by
  obtain ⟨r, rfl⟩ := List.head?_eq_some_iff.1 h
  rw [← keepEnd_append_keepStart, ← length_keepEnd, List.getElem?_append_right (Nat.le_refl _),
    Nat.sub_self, keepStart_eq]
  rfl

theorem Coherent.before_eq (h : Coherent a s) : s.before = a.source.take a.start := by
  obtain ⟨before, hconsumed, hstart, -⟩ := h.consumed
  obtain rfl : s.before = before := List.append_cancel_right (h.consumed_eq.symm.trans hconsumed)
  rw [← h.source_eq, Reader.source, hconsumed, ← hstart, List.append_assoc, List.take_left]

theorem Coherent.onward_eq (h : Coherent a s) : s.onward = a.source.drop a.start := by
  obtain ⟨before, hconsumed, hstart, -⟩ := h.consumed
  rw [← h.source_eq, Reader.source, hconsumed, ← hstart, List.append_assoc, List.drop_left, onward]

/-- The window of a collapsed text is on one line. -/
theorem lineFeed_not_mem_window (t : Text) (p : Nat) : '\n' ∉ window t.oneSpaced p := by
  have hshown : '\n' ∉ t.oneSpaced := by
    rw [← Text.collapse_eq_oneSpaced]
    intro h
    cases Text.eq_blank_of_mem_collapse h rfl
  have hpart : '\n' ∉ ((t.oneSpaced).take (min t.oneSpaced.length (p + 20))).drop (p - 20) :=
    fun h => hshown (List.mem_of_mem_take (List.mem_of_mem_drop h))
  have hmark (q : Prop) [Decidable q] : '\n' ∉ (if q then "...".toList else []) := by
    by_cases hq : q <;> simp [hq]
  simp only [window, List.mem_append, not_or]
  exact ⟨⟨hmark _, hpart⟩, hmark _⟩

/-- **The caret marks the current token**, whatever a scanner was asked for. The collapsed source falls
into what stands before the current token, of length `p`, and what stands from there on, and the pointer
has two lines: the window of the collapsed source around `p`, and below it as many hyphens as the
window has characters in front of that place, and a caret. So the first character of the current token
is right above the caret, as a blank if it is white space. -/
theorem pointer_session (source : Text) (qs : List Request) :
    let s := ((ofText source).run qs).2
    let a := (Account.fresh source).track (ofText source) qs
    let shown := a.source.oneSpaced
    let p := (Text.oneSpaced (a.source.take a.start)).length
    s.pointer = window shown p ++ '\n' :: (List.replicate (windowColumn p) '-' ++ ['^']) ∧
    s.pointer.count '\n' = 1 ∧
    shown = Text.oneSpaced (a.source.take a.start) ++ Text.oneSpaced (a.source.drop a.start) ∧
    s.text <+: a.source.drop a.start ∧
    ∀ c, s.text.head? = some c → (window shown p)[windowColumn p]? = some (if isSpace c then ' ' else c) := by
  intro s a shown p
  have hs : Coherent a s := (Coherent.start source).run qs
  have happart : a.Apart := Account.Apart.track (Or.inl rfl) (.start source) qs
  have hshown : shown = Text.oneSpaced (a.source.take a.start) ++ Text.oneSpaced (a.source.drop a.start) :=
    happart.oneSpaced_eq
  have hpointer : s.pointer = window shown p ++ '\n' :: (List.replicate (windowColumn p) '-' ++ ['^']) := by
    simp only [pointer, leftContext, rightContext, hs.before_eq, hs.onward_eq, Text.collapse_eq_oneSpaced,
      length_keepEnd, keepEnd_append_keepStart, ← hshown]
    simp [p]
  have hprefix : s.text <+: a.source.drop a.start := ⟨s.reader.ahead, hs.onward_eq⟩
  refine ⟨hpointer, ?_, hshown, hprefix, ?_⟩
  · rw [hpointer, List.count_append, List.count_cons_self, List.count_append,
      List.count_eq_zero.2 (lineFeed_not_mem_window a.source p)]
    simp [List.count_replicate]
  · intro c hc
    obtain ⟨rest, hrest⟩ : ∃ rest, a.source.drop a.start = c :: rest := by
      obtain ⟨text, htext⟩ := List.head?_eq_some_iff.1 hc
      obtain ⟨later, hlater⟩ := hprefix
      exact ⟨text ++ later, by rw [← hlater, htext]; rfl⟩
    rw [hshown]
    apply window_windowColumn
    rw [hrest, ← Text.collapse_eq_oneSpaced, Text.head?_collapse]

end Scanner

end AngleLexer
