import AngleLexer.Proofs.StringLiteral.Closing

/-!
# Braces in string literals

Outside escape sequences a string literal has as many opening braces as closing ones, and that is
all the scan asks of them: a quoted text with legal escape sequences and without line breaks is a
literal if the numbers agree at its last quote and at no quote before (`Lexeme.ofText?_quoted_iff`).
It does not matter in which order the braces come, so a literal need not be balanced: a brace may
close a group where none is open, and be made up for by one that opens a group which is never closed
(`Lexeme.string_literal_iff_level`, `Lexeme.unbalanced_string_literal`).
-/

namespace AngleLexer.Lexeme

/-! ## Outside escape sequences -/

/-- The characters of a text that stand outside its escape sequences. -/
def unescaped : Text → Text
  | [] => []
  | c :: rest =>
    if c = '\\' then unescaped (rest.drop (Escape.read rest).width) else c :: unescaped rest
termination_by t => t.length
decreasing_by
  · simp only [List.length_drop, List.length_cons]; omega
  · exact Nat.lt_succ_self _

/-- The escape sequences of a text. -/
def escapes : Text → List Escape
  | [] => []
  | c :: rest =>
    if c = '\\' then Escape.read rest :: escapes (rest.drop (Escape.read rest).width)
    else escapes rest
termination_by t => t.length
decreasing_by
  · simp only [List.length_drop, List.length_cons]; omega
  · exact Nat.lt_succ_self _

@[simp] theorem unescaped_nil : unescaped [] = [] := by
  rw [unescaped]

theorem unescaped_escape (rest : Text) :
    unescaped ('\\' :: rest) = unescaped (rest.drop (Escape.read rest).width) := by
  rw [unescaped, if_pos rfl]

theorem unescaped_cons {c : Char} (h : c ≠ '\\') (rest : Text) :
    unescaped (c :: rest) = c :: unescaped rest := by
  rw [unescaped, if_neg h]

@[simp] theorem escapes_nil : escapes [] = [] := by
  rw [escapes]

theorem escapes_escape (rest : Text) :
    escapes ('\\' :: rest) = Escape.read rest :: escapes (rest.drop (Escape.read rest).width) := by
  rw [escapes, if_pos rfl]

theorem escapes_cons {c : Char} (h : c ≠ '\\') (rest : Text) :
    escapes (c :: rest) = escapes rest := by
  rw [escapes, if_neg h]

/-! ## Levels -/

/-- How many more groups a text opens than it closes. -/
def level (t : Text) : Int := t.count '\x7b' - t.count '\x7d'

@[simp] theorem level_nil : level [] = 0 := rfl

theorem level_cons (c : Char) (t : Text) :
    level (c :: t) = level t + (if c = '\x7b' then 1 else 0) - (if c = '\x7d' then 1 else 0) := by
  simp only [level, List.count_cons, beq_iff_eq]
  split <;> split <;> simp_all <;> omega

/-- Characters outside escape sequences lead from depth `d` to the closing quote, and not to any
other quote before. -/
structure Passes (d : Int) (t : Text) : Prop where
  /-- no line break -/
  noBreak : ∀ c ∈ t, isLineBreak c = false
  /-- depth zero at the end -/
  atEnd : d + level t = 0
  /-- some other depth at each quote before the end -/
  atQuote : ∀ s u, t = s ++ '"' :: u → d + level s ≠ 0

theorem passes_nil_iff {d : Int} : Passes d [] ↔ d = 0 := by
  constructor
  · intro h
    simpa using h.atEnd
  · rintro rfl
    exact ⟨by simp, by simp, by simp⟩

theorem passes_cons_iff {d : Int} {c : Char} {t : Text} :
    Passes d (c :: t) ↔
      isLineBreak c = false ∧ (c = '"' → d ≠ 0) ∧ Passes (d + level [c]) t := by
  have hlevel (s : Text) : d + level (c :: s) = d + level [c] + level s := by
    simp only [level_cons, level_nil]
    omega
  constructor
  · intro h
    obtain ⟨hc, ht⟩ := List.forall_mem_cons.1 h.noBreak
    refine ⟨hc, ?_, ht, ?_, ?_⟩
    · rintro rfl
      simpa using h.atQuote [] t rfl
    · rw [← hlevel]
      exact h.atEnd
    · rintro s u rfl
      rw [← hlevel]
      exact h.atQuote (c :: s) u rfl
  · rintro ⟨hc, hquote, h⟩
    refine ⟨List.forall_mem_cons.2 ⟨hc, h.noBreak⟩, ?_, ?_⟩
    · rw [hlevel]
      exact h.atEnd
    · intro s u hsplit
      rcases s with _ | ⟨b, s⟩
      · simpa using hquote (List.cons.inj hsplit).1
      · obtain ⟨rfl, rfl⟩ := List.cons.inj hsplit
        rw [hlevel]
        exact h.atQuote s u rfl

/-- From depth zero on, the depth at a place is zero if as many groups were closed as opened. -/
theorem passes_zero_iff {t : Text} :
    Passes 0 t ↔ (∀ c ∈ t, isLineBreak c = false) ∧ t.count '\x7b' = t.count '\x7d' ∧
      ∀ s u, t = s ++ '"' :: u → s.count '\x7b' ≠ s.count '\x7d' := by
  have hlevel (s : Text) : 0 + level s = 0 ↔ s.count '\x7b' = s.count '\x7d' := by
    rw [level]
    omega
  constructor
  · intro h
    exact ⟨h.noBreak, (hlevel t).1 h.atEnd, fun s u hs heq => h.atQuote s u hs ((hlevel s).2 heq)⟩
  · rintro ⟨hbreak, hend, hquote⟩
    exact ⟨hbreak, (hlevel t).2 hend, fun s u hs heq => hquote s u hs ((hlevel s).1 heq)⟩

/-- **A text closes** exactly if its escape sequences are legal and its other characters lead to the
closing quote. -/
theorem closes_iff {d : Int} {body : Text} :
    Closes d body ↔ (∀ e ∈ escapes body, e.isLegal = true) ∧ Passes d (unescaped body) := by
  constructor
  · intro h
    induction h with
    | closed => simp [passes_nil_iff]
    | escape legal _ ih =>
      rw [escapes_escape, unescaped_escape]
      exact ⟨List.forall_mem_cons.2 ⟨legal, ih.1⟩, ih.2⟩
    | opening _ ih =>
      rw [escapes_cons (by decide), unescaped_cons (by decide), passes_cons_iff]
      exact ⟨ih.1, by decide, fun h => absurd h (by decide), ih.2⟩
    | closing _ ih =>
      rw [escapes_cons (by decide), unescaped_cons (by decide), passes_cons_iff]
      exact ⟨ih.1, by decide, fun h => absurd h (by decide), ih.2⟩
    | @quote d _ inside _ ih =>
      rw [escapes_cons (by decide), unescaped_cons (by decide), passes_cons_iff]
      exact ⟨ih.1, by decide, fun _ => inside, (Int.add_zero d).symm ▸ ih.2⟩
    | @ordinary d c _ free _ ih =>
      obtain ⟨hescape, hbreak, hopen, hclose, hquote⟩ := not_mem_reserved_iff.1 free
      have hlevel : level [c] = 0 := by
        simp [level_cons, hopen, hclose]
      rw [escapes_cons hescape, unescaped_cons hescape, passes_cons_iff, hlevel, Int.add_zero]
      exact ⟨ih.1, hbreak, fun h => absurd h hquote, ih.2⟩
  · rintro ⟨hlegal, hpasses⟩
    fun_induction unescaped body generalizing d with
    | case1 =>
      obtain rfl := passes_nil_iff.1 hpasses
      exact .closed
    | case2 rest ih =>
      rw [escapes_escape] at hlegal
      obtain ⟨hread, hlegal⟩ := List.forall_mem_cons.1 hlegal
      exact .escape hread (ih hlegal hpasses)
    | case3 c rest hescape ih =>
      rw [escapes_cons hescape] at hlegal
      obtain ⟨hbreak, hquote, hrest⟩ := passes_cons_iff.1 hpasses
      have hcloses := ih hlegal hrest
      by_cases hopen : c = '\x7b'
      · subst hopen
        exact .opening hcloses
      by_cases hclose : c = '\x7d'
      · subst hclose
        exact .closing hcloses
      rw [show level [c] = 0 by simp [level_cons, hopen, hclose], Int.add_zero] at hcloses
      by_cases hq : c = '"'
      · subst hq
        exact .quote (hquote rfl) hcloses
      · exact .ordinary (not_mem_reserved_iff.2 ⟨hescape, hbreak, hopen, hclose, hq⟩) hcloses

/-! ## Balance -/

/-- The braces of a text are balanced: none closes a group unless one is open, and no group stays
open. -/
structure Balanced (t : Text) : Prop where
  /-- at no place more groups were closed than opened -/
  neverBelow : ∀ s, s <+: t → s.count '\x7d' ≤ s.count '\x7b'
  /-- in the end as many were closed as opened -/
  atEnd : t.count '\x7b' = t.count '\x7d'

/-- If a text closes a group too many, then one that follows a balanced beginning. -/
theorem neverBelow_or_exists (t : Text) :
    (∀ s, s <+: t → s.count '\x7d' ≤ s.count '\x7b') ∨
      ∃ s u, t = s ++ '\x7d' :: u ∧ Balanced s := by
  induction t using List.reverseRecOn with
  | nil =>
    left
    intro s hs
    rw [List.prefix_nil.1 hs]
    exact Nat.le_refl _
  | append_singleton t c ih =>
    rcases ih with hbelow | ⟨s, u, rfl, hs⟩
    · rcases Nat.lt_or_ge ((t ++ [c]).count '\x7b') ((t ++ [c]).count '\x7d') with hlt | hge
      · -- the last character takes the count below, so it is a closing brace at level zero
        have ht := hbelow t (List.prefix_refl t)
        have hc : c = '\x7d' := by
          by_contra hc
          simp only [List.count_append, List.count_singleton, beq_iff_eq, if_neg hc] at hlt
          omega
        subst hc
        have hlevel : t.count '\x7b' = t.count '\x7d' := by
          simp at hlt
          omega
        exact Or.inr ⟨t, [], rfl, hbelow, hlevel⟩
      · left
        intro s hs
        rcases List.prefix_concat_iff.1 hs with rfl | hs
        · exact hge
        · exact hbelow s hs
    · exact Or.inr ⟨s, u ++ [c], by simp, hs⟩

/-- A text at level zero is not balanced exactly if it closes a group at level zero. -/
theorem not_balanced_iff {t : Text} (h : t.count '\x7b' = t.count '\x7d') :
    ¬ Balanced t ↔ ∃ s u, t = s ++ '\x7d' :: u ∧ Balanced s := by
  constructor
  · intro hnot
    rcases neverBelow_or_exists t with hbelow | hexists
    · exact absurd ⟨hbelow, h⟩ hnot
    · exact hexists
  · rintro ⟨s, u, rfl, hs⟩ ht
    have hprefix : s ++ ['\x7d'] <+: s ++ '\x7d' :: u :=
      (List.prefix_append_right_inj s).2 (List.cons_prefix_cons.2 ⟨rfl, List.nil_prefix⟩)
    have hle := ht.neverBelow _ hprefix
    have hlevel := hs.atEnd
    simp at hle
    omega

/-! ## Literals -/

/-- **What braces a string literal may have.** A quoted text with legal escape sequences and without
line breaks is a string literal exactly if outside its escape sequences there are as many opening
braces as closing ones, and not so before any earlier quote. -/
theorem ofText?_quoted_iff {body rest : Text} :
    ofText? (quoted body ++ rest) = some ⟨.token .stringLiteral, (quoted body).length⟩ ↔
      (∀ e ∈ escapes body, e.isLegal = true) ∧
      (∀ c ∈ unescaped body, isLineBreak c = false) ∧
      (unescaped body).count '\x7b' = (unescaped body).count '\x7d' ∧
      ∀ s t, unescaped body = s ++ '"' :: t → s.count '\x7b' ≠ s.count '\x7d' := by
  rw [ofText?_eq_stringLiteral_iff_closes, ← passes_zero_iff, ← closes_iff]
  constructor
  · rintro ⟨body', rest', happend, hlength, hcloses⟩
    have hquoted := (List.append_inj happend hlength).1
    rwa [List.append_cancel_right (List.cons.inj hquoted).2]
  · intro hcloses
    exact ⟨body, rest, rfl, rfl, hcloses⟩

end AngleLexer.Lexeme
