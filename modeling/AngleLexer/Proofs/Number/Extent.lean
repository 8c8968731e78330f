import AngleLexer.Proofs.Number.Grammar

/-!
# How far a number reaches

Numbers are measured part by part, and each part takes what it can get. Nothing is lost by that: no
part begins with a character of the part before it, so a part that stopped early would leave the
next one nothing to begin with. Hence reading takes the longest number that a text starts with
(`Lexeme.longestPrefix_number`).
-/

namespace AngleLexer.Lexeme

/-! ## Runs -/

theorem longestPrefix_runTail (r : Radix) (t : Text) :
    LongestPrefix (IsRunTail r) t (runTail r.isDigit t) := by
  have hunderscore : r.isDigit '_' ≠ true := by
    rw [r.isDigit_underscore]
    exact Bool.false_ne_true
  fun_induction runTail r.isDigit t with
  | case1 c rest hc ih =>
    refine ⟨Nat.succ_le_succ (Nat.succ_le_succ ih.le), .apart hc ih.word, ?_⟩
    intro s hs hp
    cases hs with
    | nil => exact Nat.zero_le _
    | digit isDigit _ =>
      obtain ⟨rfl, -⟩ := List.cons_prefix_cons.1 hp
      exact absurd isDigit hunderscore
    | apart _ tail =>
      obtain ⟨-, hp⟩ := List.cons_prefix_cons.1 (List.cons_prefix_cons.1 hp).2
      exact Nat.succ_le_succ (Nat.succ_le_succ (ih.longest _ tail hp))
  | case2 c rest hc =>
    refine .zero .nil ?_
    intro s hs hp
    cases hs with
    | nil => rfl
    | digit isDigit _ =>
      obtain ⟨rfl, -⟩ := List.cons_prefix_cons.1 hp
      exact absurd isDigit hunderscore
    | apart isDigit _ =>
      obtain ⟨rfl, -⟩ := List.cons_prefix_cons.1 (List.cons_prefix_cons.1 hp).2
      exact absurd isDigit hc
  | case3 c rest hne hc ih =>
    refine ⟨Nat.succ_le_succ ih.le, .digit hc ih.word, ?_⟩
    intro s hs hp
    cases hs with
    | nil => exact Nat.zero_le _
    | digit _ tail =>
      obtain ⟨-, hp⟩ := List.cons_prefix_cons.1 hp
      exact Nat.succ_le_succ (ih.longest _ tail hp)
    | apart _ _ =>
      obtain ⟨rfl, -⟩ := List.cons_prefix_cons.1 hp
      exact absurd hc hunderscore
  | case4 c rest hne hc =>
    refine .zero .nil ?_
    intro s hs hp
    cases hs with
    | nil => rfl
    | digit isDigit _ =>
      obtain ⟨rfl, -⟩ := List.cons_prefix_cons.1 hp
      exact absurd isDigit hc
    | @apart d u _ _ =>
      obtain ⟨rfl, v, rfl⟩ := List.cons_prefix_cons.1 hp
      exact absurd rfl (hne d (u ++ v) rfl)
  | case5 =>
    refine .zero .nil ?_
    intro s _ hp
    exact List.prefix_nil.1 hp

/-- No run begins where none is measured. -/
theorem not_isRun_of_run_eq_zero {r : Radix} {t s : Text} (h : run r.isDigit t = 0) (hs : IsRun r s) :
    ¬ s <+: t := by
  intro hp
  cases hs with
  | mk isDigit tail =>
    obtain ⟨v, rfl⟩ := hp
    rw [List.cons_append, run, if_pos isDigit] at h
    cases h

theorem longestPrefix_run {r : Radix} {t : Text} (h : run r.isDigit t ≠ 0) :
    LongestPrefix (IsRun r) t (run r.isDigit t) := by
  rcases t with _ | ⟨c, rest⟩
  · exact absurd rfl h
  · by_cases hc : r.isDigit c = true
    · have htail := longestPrefix_runTail r rest
      rw [run, if_pos hc]
      refine ⟨Nat.succ_le_succ htail.le, ⟨hc, htail.word⟩, ?_⟩
      intro s hs hp
      cases hs with
      | mk _ tail =>
        exact Nat.succ_le_succ (htail.longest _ tail (List.cons_prefix_cons.1 hp).2)
    · rw [run, if_neg hc] at h
      exact absurd rfl h

/-! ## Parts of a number -/

theorem longestPrefix_fraction (t : Text) : LongestPrefix IsFraction t (fraction t) := by
  unfold fraction
  split
  · rename_i rest
    dsimp only
    split
    · rename_i hzero
      refine .zero .absent ?_
      intro s hs hp
      cases hs with
      | absent => rfl
      | present run =>
        exact absurd (List.cons_prefix_cons.1 hp).2 (not_isRun_of_run_eq_zero hzero run)
    · rename_i hpos
      have hrun := longestPrefix_run hpos
      refine ⟨Nat.succ_le_succ hrun.le, .present hrun.word, ?_⟩
      intro s hs hp
      cases hs with
      | absent => exact Nat.zero_le _
      | present run => exact Nat.succ_le_succ (hrun.longest _ run (List.cons_prefix_cons.1 hp).2)
  · rename_i hne
    refine .zero .absent ?_
    intro s hs hp
    cases hs with
    | absent => rfl
    | present _ =>
      obtain ⟨v, rfl⟩ := hp
      exact absurd rfl (hne _)

theorem longestPrefix_sign (t : Text) : LongestPrefix IsSign t (sign t) := by
  unfold sign
  split
  · refine ⟨Nat.succ_le_succ (Nat.zero_le _), .plus, ?_⟩
    intro s hs _
    cases hs <;> decide
  · refine ⟨Nat.succ_le_succ (Nat.zero_le _), .minus, ?_⟩
    intro s hs _
    cases hs <;> decide
  · rename_i hplus hminus
    refine .zero .absent ?_
    intro s hs hp
    cases hs with
    | absent => rfl
    | plus =>
      obtain ⟨v, rfl⟩ := hp
      exact absurd rfl (hplus v)
    | minus =>
      obtain ⟨v, rfl⟩ := hp
      exact absurd rfl (hminus v)

/-- The run behind a sign is looked for where it begins. -/
theorem drop_sign_of_isPrefix {t sign' digits : Text} (hsign : IsSign sign')
    (hrun : IsRun .decimal digits) (h : sign' ++ digits <+: t) :
    sign'.length = sign t ∧ digits <+: t.drop (sign t) := by
  rcases digits with _ | ⟨d, digits⟩
  · exact absurd rfl hrun.ne_nil
  · exact (longestPrefix_sign t).drop_of_append hsign (fun _ ha => ha.not_mem hrun.isDigit_head) h

theorem longestPrefix_exponent (t : Text) : LongestPrefix IsExponent t (exponent t) := by
  unfold exponent
  split
  · rename_i c rest
    split
    · rename_i hletter
      have hsign := longestPrefix_sign rest
      dsimp only
      split
      · rename_i hzero
        refine .zero .absent ?_
        intro s hs hp
        cases hs with
        | absent => rfl
        | present _ isSign digits =>
          have hdrop := (drop_sign_of_isPrefix isSign digits (List.cons_prefix_cons.1 hp).2).2
          exact absurd hdrop (not_isRun_of_run_eq_zero hzero digits)
      · rename_i hpos
        have hrun : LongestPrefix (IsRun .decimal) (rest.drop (sign rest))
            (run isDecimalDigit (rest.drop (sign rest))) := longestPrefix_run hpos
        refine ⟨?_, ?_, ?_⟩
        · have hle := hrun.le
          have hsle := hsign.le
          rw [List.length_drop] at hle
          rw [List.length_cons]
          omega
        · rw [List.take_succ_cons, List.take_add]
          exact .present hletter hsign.word hrun.word
        · intro s hs hp
          cases hs with
          | absent => exact Nat.zero_le _
          | present _ isSign digits =>
            obtain ⟨hlength, hdrop⟩ := drop_sign_of_isPrefix isSign digits (List.cons_prefix_cons.1 hp).2
            rw [List.length_cons, List.length_append, hlength]
            exact Nat.succ_le_succ (Nat.add_le_add_left (hrun.longest _ digits hdrop) _)
    · rename_i hletter
      refine .zero .absent ?_
      intro s hs hp
      cases hs with
      | absent => rfl
      | present letter _ _ => exact absurd ((List.cons_prefix_cons.1 hp).1 ▸ letter) hletter
  · refine .zero .absent ?_
    intro s _ hp
    exact List.prefix_nil.1 hp

/-! ## Numbers -/

theorem longestPrefix_decimalNumber {c : Char} {rest : Text} (hc : isDecimalDigit c = true) :
    LongestPrefix IsDecimal (c :: rest) (decimalNumber (c :: rest)) := by
  have hwhole : LongestPrefix (IsRun .decimal) (c :: rest) (run isDecimalDigit (c :: rest)) :=
    longestPrefix_run (Nat.ne_of_gt (run_pos hc))
  have hmantissa : LongestPrefix IsMantissa (c :: rest) _ :=
    hwhole.append (longestPrefix_fraction _) fun _ _ hb _ ha => by
      cases hb
      exact ha.point_not_mem
  exact hmantissa.append (longestPrefix_exponent _) fun _ _ hb _ ha => by
    cases hb with
    | present letter _ _ => exact ha.letter_not_mem letter

theorem markedNumber?_eq_some_iff {t : Text} {n : Nat} :
    markedNumber? t = some n ↔
      ∃ (r : Radix) (mark : Char) (rest : Text), t = '0' :: mark :: rest ∧ mark ∈ r.marks ∧
        run r.isDigit rest ≠ 0 ∧ n = run r.isDigit rest + 2 := by
  constructor
  · intro h
    unfold markedNumber? at h
    split at h
    · rename_i mark rest
      obtain ⟨r, hr, hn⟩ := Option.bind_eq_some_iff.1 h
      dsimp only at hn
      split at hn
      · cases hn
      · rename_i hpos
        exact ⟨r, mark, rest, rfl, Radix.ofMark?_eq_some_iff.1 hr, hpos, (Option.some.inj hn).symm⟩
    · cases h
  · rintro ⟨r, mark, rest, rfl, hmark, hpos, rfl⟩
    rw [markedNumber?, Radix.ofMark?_eq_some_iff.2 hmark, Option.bind_some]
    exact if_neg hpos

/-- A zero, a mark and a run are read as a number with a mark. -/
theorem exists_markedNumber? {r : Radix} {mark : Char} {digits t : Text} (hmark : mark ∈ r.marks)
    (hrun : IsRun r digits) (h : '0' :: mark :: digits <+: t) :
    ∃ n, markedNumber? t = some n ∧ digits.length + 2 ≤ n := by
  obtain ⟨v, rfl⟩ := h
  have hp : digits <+: digits ++ v := List.prefix_append _ _
  have hpos : run r.isDigit (digits ++ v) ≠ 0 := fun hzero => not_isRun_of_run_eq_zero hzero hrun hp
  refine ⟨_, markedNumber?_eq_some_iff.2 ⟨r, mark, digits ++ v, rfl, hmark, hpos, rfl⟩, ?_⟩
  exact Nat.add_le_add_right ((longestPrefix_run hpos).longest _ hrun hp) 2

/-- **Reading takes the longest number** that a text starts with, if it starts with a digit. -/
theorem longestPrefix_number {c : Char} {rest : Text} (hc : isDecimalDigit c = true) :
    LongestPrefix IsNumber (c :: rest) (number (c :: rest)) := by
  unfold number
  rcases hm : markedNumber? (c :: rest) with _ | n
  · have hdecimal : LongestPrefix IsDecimal (c :: rest) _ := longestPrefix_decimalNumber hc
    rw [Option.getD_none]
    refine ⟨hdecimal.le, .decimal hdecimal.word, ?_⟩
    intro s hs hp
    cases hs with
    | decimal isDecimal => exact hdecimal.longest s isDecimal hp
    | marked isMark run =>
      obtain ⟨n, hn, -⟩ := exists_markedNumber? isMark run hp
      rw [hm] at hn
      cases hn
  · rw [Option.getD_some]
    obtain ⟨r, mark, rest, ht, hmark, hpos, rfl⟩ := markedNumber?_eq_some_iff.1 hm
    have hrun := longestPrefix_run hpos
    rw [ht]
    refine ⟨Nat.succ_le_succ (Nat.succ_le_succ hrun.le), .marked hmark hrun.word, ?_⟩
    intro s hs hp
    cases hs with
    | decimal isDecimal =>
      -- the mark is no character of a number without one, so only the zero is left for it
      rcases s with _ | ⟨z, _ | ⟨m, s⟩⟩
      · exact Nat.zero_le _
      · exact Nat.succ_le_succ (Nat.zero_le _)
      · obtain ⟨rfl, -⟩ := List.cons_prefix_cons.1 (List.cons_prefix_cons.1 hp).2
        exact absurd hmark (isDecimal.not_mem_marks (List.mem_cons_of_mem _ List.mem_cons_self) r)
    | marked isMark run =>
      obtain ⟨n, hn, hle⟩ := exists_markedNumber? isMark run (ht ▸ hp)
      rw [hm] at hn
      obtain rfl := Option.some.inj hn
      exact hle

end AngleLexer.Lexeme
