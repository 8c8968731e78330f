import AngleLexer.Lexeme.Number
import AngleLexer.Lexeme.Quoted
import AngleLexer.Proofs.LongestPrefix

/-!
# The grammar of numbers

What a number looks like, said without reading one (`IsNumber`). A text that starts with a digit
starts with a number, and reading takes the longest one (`Lexeme.longestPrefix_number`). Reading looks
at most three characters beyond what it takes: behind a number, a letter `e` and a sign need one
more digit to belong to it, and nothing else needs as much (`lagsBy_isNumber`).
-/

namespace AngleLexer

namespace Radix

/-- The letters that announce a radix, behind a leading zero. -/
def marks : Radix → List Char
  | binary => ['b', 'B']
  | octal => ['o', 'O']
  | decimal => []
  | hexadecimal => ['x', 'X']

theorem ofMark?_eq_some_iff {c : Char} {r : Radix} : ofMark? c = some r ↔ c ∈ r.marks := by
  constructor
  · intro h
    unfold ofMark? at h
    split at h
    · cases h
      rename_i hc
      rcases hc with rfl | rfl <;> decide
    · split at h
      · cases h
        rename_i hc
        rcases hc with rfl | rfl <;> decide
      · split at h
        · cases h
          rename_i hc
          rcases hc with rfl | rfl <;> decide
        · cases h
  · intro h
    have hall : (r.marks.all fun c => decide (ofMark? c = some r)) = true := by cases r <;> decide
    exact of_decide_eq_true (List.all_eq_true.1 hall c h)

theorem isDigit_underscore (r : Radix) : r.isDigit '_' = false := by
  cases r <;> decide

end Radix

/-! ## Runs -/

/-- What may follow a digit in a run: digits, each with at most one underscore before it. -/
inductive IsRunTail (r : Radix) : Text → Prop
  /-- the run ends -/
  | nil : IsRunTail r []
  /-- another digit -/
  | digit {c : Char} {t : Text} (isDigit : r.isDigit c = true) (tail : IsRunTail r t) :
    IsRunTail r (c :: t)
  /-- another digit, set apart by an underscore -/
  | apart {c : Char} {t : Text} (isDigit : r.isDigit c = true) (tail : IsRunTail r t) :
    IsRunTail r ('_' :: c :: t)

/-- A run: digits of a radix with single underscores between them. -/
inductive IsRun (r : Radix) : Text → Prop
  /-- a digit and what follows it -/
  | mk {c : Char} {t : Text} (isDigit : r.isDigit c = true) (tail : IsRunTail r t) : IsRun r (c :: t)

theorem IsRunTail.mem {r : Radix} {t : Text} (h : IsRunTail r t) {c : Char} (hc : c ∈ t) :
    r.isDigit c = true ∨ c = '_' := by
  induction h with
  | nil => cases hc
  | digit isDigit _ ih =>
    rcases List.mem_cons.1 hc with rfl | hc
    · exact Or.inl isDigit
    · exact ih hc
  | apart isDigit _ ih =>
    rcases List.mem_cons.1 hc with rfl | hc
    · exact Or.inr rfl
    · rcases List.mem_cons.1 hc with rfl | hc
      · exact Or.inl isDigit
      · exact ih hc

/-- A run holds nothing but digits and underscores. -/
theorem IsRun.mem {r : Radix} {t : Text} (h : IsRun r t) {c : Char} (hc : c ∈ t) :
    r.isDigit c = true ∨ c = '_' := by
  cases h with
  | mk isDigit tail =>
    rcases List.mem_cons.1 hc with rfl | hc
    · exact Or.inl isDigit
    · exact tail.mem hc

theorem IsRun.isDigit_head {r : Radix} {c : Char} {t : Text} (h : IsRun r (c :: t)) :
    r.isDigit c = true := by
  cases h with
  | mk isDigit _ => exact isDigit

theorem IsRun.ne_nil {r : Radix} {t : Text} (h : IsRun r t) : t ≠ [] := by
  cases h
  exact List.cons_ne_nil _ _

/-- Cut anywhere, what follows a digit loses at most an underscore. -/
theorem lagsBy_isRunTail (r : Radix) : LagsBy 1 (IsRunTail r) := by
  rintro s p hs hp -
  have hnil : ∃ q, IsRunTail r q ∧ q <+: [] ∧ ([] : Text).length ≤ q.length + 1 :=
    ⟨[], .nil, List.prefix_refl _, Nat.le_succ _⟩
  induction hs generalizing p with
  | nil =>
    obtain rfl := List.prefix_nil.1 hp
    exact hnil
  | @digit c t isDigit _ ih =>
    rcases p with _ | ⟨d, p⟩
    · exact hnil
    · obtain ⟨rfl, hpt⟩ := List.cons_prefix_cons.1 hp
      obtain ⟨q, hq, hqp, hlength⟩ := ih p hpt
      exact ⟨d :: q, .digit isDigit hq, List.cons_prefix_cons.2 ⟨rfl, hqp⟩, Nat.succ_le_succ hlength⟩
  | @apart c t isDigit _ ih =>
    rcases p with _ | ⟨u, _ | ⟨d, p⟩⟩
    · exact hnil
    · exact ⟨[], .nil, List.nil_prefix, Nat.le_refl _⟩
    · obtain ⟨hu, hdp⟩ := List.cons_prefix_cons.1 hp
      obtain ⟨rfl, hpt⟩ := List.cons_prefix_cons.1 hdp
      obtain ⟨q, hq, hqp, hlength⟩ := ih p hpt
      rw [hu]
      refine ⟨'_' :: d :: q, .apart isDigit hq, ?_, Nat.succ_le_succ (Nat.succ_le_succ hlength)⟩
      exact List.cons_prefix_cons.2 ⟨rfl, List.cons_prefix_cons.2 ⟨rfl, hqp⟩⟩

/-- Cut anywhere but at its start, a run loses at most an underscore. -/
theorem IsRun.exists_prefix {r : Radix} {s p : Text} (hs : IsRun r s) (hp : p <+: s) (hne : p ≠ []) :
    ∃ q, IsRun r q ∧ q <+: p ∧ p.length ≤ q.length + 1 := by
  cases hs with
  | @mk c t isDigit tail =>
    rcases p with _ | ⟨d, p⟩
    · exact absurd rfl hne
    · obtain ⟨rfl, hpt⟩ := List.cons_prefix_cons.1 hp
      obtain ⟨q, hq, hqp, hlength⟩ := lagsBy_isRunTail r t p tail hpt ⟨[], .nil, List.nil_prefix⟩
      exact ⟨d :: q, ⟨isDigit, hq⟩, List.cons_prefix_cons.2 ⟨rfl, hqp⟩, Nat.succ_le_succ hlength⟩

theorem lagsBy_isRun (r : Radix) : LagsBy 1 (IsRun r) := by
  rintro s p hs hp ⟨v, hv, hvp⟩
  refine hs.exists_prefix hp ?_
  rintro rfl
  exact hv.ne_nil (List.prefix_nil.1 hvp)

/-! ## Numbers -/

/-- The fraction of a number, if it has one. -/
inductive IsFraction : Text → Prop
  /-- no fraction -/
  | absent : IsFraction []
  /-- a point and a run -/
  | present {digits : Text} (run : IsRun .decimal digits) : IsFraction ('.' :: digits)

/-- A sign that may be left out. -/
inductive IsSign : Text → Prop
  /-- no sign -/
  | absent : IsSign []
  /-- a plus -/
  | plus : IsSign ['+']
  /-- a minus -/
  | minus : IsSign ['-']

/-- No digit stands in a sign. -/
theorem IsSign.not_mem {s : Text} (h : IsSign s) {c : Char} (hc : isDecimalDigit c = true) :
    c ∉ s := by
  intro hmem
  cases h with
  | absent => cases hmem
  | plus | minus =>
    obtain rfl := List.mem_singleton.1 hmem
    cases hc

/-- The exponent of a number, if it has one. -/
inductive IsExponent : Text → Prop
  /-- no exponent -/
  | absent : IsExponent []
  /-- a letter, perhaps a sign, and a run -/
  | present {e : Char} {sign digits : Text} (letter : e = 'e' ∨ e = 'E') (isSign : IsSign sign)
    (run : IsRun .decimal digits) : IsExponent (e :: (sign ++ digits))

/-- The digits of a number without an exponent: a run and perhaps a fraction. -/
def IsMantissa (s : Text) : Prop :=
  ∃ whole fraction, s = whole ++ fraction ∧ IsRun .decimal whole ∧ IsFraction fraction

/-- A number without a mark. -/
def IsDecimal (s : Text) : Prop :=
  ∃ mantissa exponent, s = mantissa ++ exponent ∧ IsMantissa mantissa ∧ IsExponent exponent

/-- A number. -/
inductive IsNumber : Text → Prop
  /-- one without a mark -/
  | decimal {s : Text} (isDecimal : IsDecimal s) : IsNumber s
  /-- a zero, the mark of a radix and a run in that radix -/
  | marked {r : Radix} {mark : Char} {digits : Text} (isMark : mark ∈ r.marks)
    (run : IsRun r digits) : IsNumber ('0' :: mark :: digits)

/-! ### The characters of a number -/

/-- The characters of numbers without a mark that are no digits. -/
def decimalSigns : List Char := ['_', '.', 'e', 'E', '+', '-']

theorem IsRun.mem_decimal {t : Text} (h : IsRun .decimal t) {c : Char} (hc : c ∈ t) :
    isDecimalDigit c = true ∨ c ∈ decimalSigns := by
  rcases h.mem hc with hd | rfl
  · exact Or.inl hd
  · exact Or.inr (by decide)

theorem IsRun.point_not_mem {t : Text} (h : IsRun .decimal t) : '.' ∉ t := by
  intro hpoint
  rcases h.mem hpoint with hd | hd <;> cases hd

theorem IsFraction.mem {t : Text} (h : IsFraction t) {c : Char} (hc : c ∈ t) :
    isDecimalDigit c = true ∨ c = '_' ∨ c = '.' := by
  cases h with
  | absent => cases hc
  | present run =>
    rcases List.mem_cons.1 hc with rfl | hc
    · exact Or.inr (Or.inr rfl)
    · rcases run.mem hc with hd | rfl
      · exact Or.inl hd
      · exact Or.inr (Or.inl rfl)

theorem IsMantissa.mem {t : Text} (h : IsMantissa t) {c : Char} (hc : c ∈ t) :
    isDecimalDigit c = true ∨ c = '_' ∨ c = '.' := by
  obtain ⟨whole, fraction, rfl, hwhole, hfraction⟩ := h
  rcases List.mem_append.1 hc with hc | hc
  · rcases hwhole.mem hc with hd | rfl
    · exact Or.inl hd
    · exact Or.inr (Or.inl rfl)
  · exact hfraction.mem hc

theorem IsMantissa.letter_not_mem {t : Text} (h : IsMantissa t) {e : Char} (he : e = 'e' ∨ e = 'E') :
    e ∉ t := by
  intro hmem
  rcases he with rfl | rfl <;> rcases h.mem hmem with hd | hd | hd <;> cases hd

theorem IsExponent.mem {t : Text} (h : IsExponent t) {c : Char} (hc : c ∈ t) :
    isDecimalDigit c = true ∨ c ∈ decimalSigns := by
  cases h with
  | absent => cases hc
  | present letter isSign run =>
    rcases List.mem_cons.1 hc with rfl | hc
    · rcases letter with rfl | rfl <;> exact Or.inr (by decide)
    · rcases List.mem_append.1 hc with hc | hc
      · cases isSign with
        | absent => cases hc
        | plus | minus =>
          obtain rfl := List.mem_singleton.1 hc
          exact Or.inr (by decide)
      · exact run.mem_decimal hc

/-- A number without a mark holds digits and a few other characters. -/
theorem IsDecimal.mem {t : Text} (h : IsDecimal t) {c : Char} (hc : c ∈ t) :
    isDecimalDigit c = true ∨ c ∈ decimalSigns := by
  obtain ⟨mantissa, exponent, rfl, hmantissa, hexponent⟩ := h
  rcases List.mem_append.1 hc with hc | hc
  · rcases hmantissa.mem hc with hd | rfl | rfl
    · exact Or.inl hd
    · exact Or.inr (by decide)
    · exact Or.inr (by decide)
  · exact hexponent.mem hc

/-- A number without a mark begins with a digit. -/
theorem IsDecimal.exists_cons {t : Text} (h : IsDecimal t) :
    ∃ c rest, t = c :: rest ∧ isDecimalDigit c = true := by
  obtain ⟨_, exponent, rfl, ⟨whole, fraction, rfl, hwhole, -⟩, -⟩ := h
  cases hwhole with
  | @mk c rest isDigit _ => exact ⟨c, rest ++ fraction ++ exponent, rfl, isDigit⟩

/-- No mark is a character of a number without one. -/
theorem IsDecimal.not_mem_marks {t : Text} (h : IsDecimal t) {c : Char} (hc : c ∈ t) (r : Radix) :
    c ∉ r.marks := by
  intro hmark
  have hall : (r.marks.all fun c => decide (isDecimalDigit c = false ∧ c ∉ decimalSigns)) = true := by
    cases r <;> decide
  obtain ⟨hdigit, hsign⟩ := of_decide_eq_true (List.all_eq_true.1 hall c hmark)
  rcases h.mem hc with hd | hs
  · rw [hd] at hdigit
    cases hdigit
  · exact hsign hs

theorem isDecimal_singleton {c : Char} (h : isDecimalDigit c = true) : IsDecimal [c] :=
  ⟨[c], [], rfl, ⟨[c], [], rfl, ⟨h, .nil⟩, .absent⟩, .absent⟩

/-- A number begins with a digit. -/
theorem IsNumber.exists_cons {t : Text} (h : IsNumber t) :
    ∃ c rest, t = c :: rest ∧ isDecimalDigit c = true := by
  cases h with
  | decimal isDecimal => exact isDecimal.exists_cons
  | marked _ _ => exact ⟨'0', _, rfl, by decide⟩

/-- A number holds digits, the mark of a radix and a few other characters. -/
theorem IsNumber.mem {t : Text} (h : IsNumber t) {c : Char} (hc : c ∈ t) :
    (∃ r : Radix, r.isDigit c = true ∨ c ∈ r.marks) ∨ c ∈ decimalSigns := by
  cases h with
  | decimal isDecimal =>
    rcases isDecimal.mem hc with hd | hs
    · exact Or.inl ⟨.decimal, Or.inl hd⟩
    · exact Or.inr hs
  | @marked r mark digits isMark run =>
    rcases List.mem_cons.1 hc with rfl | hc
    · exact Or.inl ⟨.decimal, Or.inl rfl⟩
    · rcases List.mem_cons.1 hc with rfl | hc
      · exact Or.inl ⟨r, Or.inr isMark⟩
      · rcases run.mem hc with hd | rfl
        · exact Or.inl ⟨r, Or.inl hd⟩
        · exact Or.inr (by decide)

theorem IsNumber.not_mem {t : Text} (h : IsNumber t) {c : Char}
    (hnone : ∀ r : Radix, r.isDigit c = false ∧ c ∉ r.marks ∧ c ∉ decimalSigns) : c ∉ t := by
  intro hc
  rcases h.mem hc with ⟨r, hd | hm⟩ | hs
  · rw [(hnone r).1] at hd
    cases hd
  · exact (hnone r).2.1 hm
  · exact (hnone .decimal).2.2 hs

/-- A number stays on its line. -/
theorem IsNumber.isLineEnd_eq_false {t : Text} (h : IsNumber t) {c : Char} (hc : c ∈ t) :
    Lexeme.isLineEnd c = false := by
  refine Bool.not_eq_true _ ▸ fun hend => h.not_mem (fun r => ?_) hc
  rcases Lexeme.isLineEnd_iff.1 hend with rfl | rfl <;> cases r <;> decide

theorem IsNumber.lineFeed_not_mem {t : Text} (h : IsNumber t) : '\n' ∉ t := by
  intro hfeed
  cases h.isLineEnd_eq_false hfeed

/-! ### Numbers in steps -/

theorem lagsBy_isFraction : LagsBy 1 IsFraction := by
  rintro s p hs hp -
  rcases p with _ | ⟨d, _ | ⟨c, p⟩⟩
  · exact ⟨[], .absent, List.prefix_refl _, Nat.le_succ _⟩
  · exact ⟨[], .absent, List.nil_prefix, Nat.le_refl _⟩
  · cases hs with
    | absent => cases List.prefix_nil.1 hp
    | present run =>
      obtain ⟨rfl, hpd⟩ := List.cons_prefix_cons.1 hp
      obtain ⟨q, hq, hqp, hlength⟩ := run.exists_prefix hpd (List.cons_ne_nil c p)
      exact ⟨'.' :: q, .present hq, List.cons_prefix_cons.2 ⟨rfl, hqp⟩, Nat.succ_le_succ hlength⟩

theorem lagsBy_isExponent : LagsBy 2 IsExponent := by
  rintro s p hs hp -
  cases hs with
  | absent =>
    obtain rfl := List.prefix_nil.1 hp
    exact ⟨[], .absent, List.prefix_refl _, Nat.zero_le _⟩
  | @present e sign digits letter isSign run =>
    have hsign : sign.length ≤ 1 := by cases isSign <;> decide
    rcases Nat.lt_or_ge p.length (sign.length + 2) with hlt | hge
    · -- no digit is there yet
      refine ⟨[], .absent, List.nil_prefix, ?_⟩
      rw [List.length_nil]
      omega
    · have hhead : e :: sign <+: p :=
        List.prefix_of_prefix_length_le (List.cons_prefix_cons.2 ⟨rfl, List.prefix_append _ _⟩) hp
          (by rw [List.length_cons]; omega)
      obtain ⟨d, rfl⟩ := hhead
      have hd : d <+: digits := (List.prefix_append_right_inj (e :: sign)).1 hp
      have hne : d ≠ [] := by
        rintro rfl
        rw [List.append_nil, List.length_cons] at hge
        omega
      obtain ⟨q, hq, hqd, hlength⟩ := run.exists_prefix hd hne
      refine ⟨e :: (sign ++ q), .present letter isSign hq,
        (List.prefix_append_right_inj (e :: sign)).2 hqd, ?_⟩
      rw [List.cons_append, List.length_cons, List.length_cons, List.length_append,
        List.length_append]
      omega

/-- **Numbers are reached in steps** of at most three characters: cut anywhere behind its first digit,
a number loses at most a letter and a sign, and what is left is a number. -/
theorem lagsBy_isNumber : LagsBy 2 IsNumber := by
  have hmantissa : LagsBy 2 IsMantissa :=
    ((lagsBy_isRun .decimal).append lagsBy_isFraction .absent).mono (Nat.le_succ 1)
  have hdecimal : LagsBy 2 IsDecimal := hmantissa.append lagsBy_isExponent .absent
  rintro s p hs hp ⟨v, hv, hvp⟩
  -- a prefix with a number in it has the first digit of that number
  obtain ⟨c, rest, rfl, hc⟩ := hv.exists_cons
  obtain ⟨p, rfl⟩ : ∃ p', p = c :: p' := by
    obtain ⟨u, rfl⟩ := hvp
    exact ⟨rest ++ u, rfl⟩
  cases hs with
  | decimal isDecimal =>
    obtain ⟨q, hq, hqp, hlength⟩ := hdecimal s (c :: p) isDecimal hp
      ⟨[c], isDecimal_singleton hc, List.cons_prefix_cons.2 ⟨rfl, List.nil_prefix⟩⟩
    exact ⟨q, .decimal hq, hqp, hlength⟩
  | @marked r mark digits isMark run =>
    obtain ⟨rfl, hpm⟩ := List.cons_prefix_cons.1 hp
    rcases p with _ | ⟨m, _ | ⟨d, p⟩⟩
    · exact ⟨['0'], .decimal (isDecimal_singleton hc), List.prefix_refl _, Nat.le_add_right _ _⟩
    · exact ⟨['0'], .decimal (isDecimal_singleton hc),
        List.cons_prefix_cons.2 ⟨rfl, List.nil_prefix⟩, Nat.le_succ _⟩
    · obtain ⟨rfl, hpd⟩ := List.cons_prefix_cons.1 hpm
      obtain ⟨q, hq, hqp, hlength⟩ := run.exists_prefix hpd (List.cons_ne_nil d p)
      refine ⟨'0' :: m :: q, .marked isMark hq, ?_, ?_⟩
      · exact List.cons_prefix_cons.2 ⟨rfl, List.cons_prefix_cons.2 ⟨rfl, hqp⟩⟩
      · exact Nat.succ_le_succ (Nat.succ_le_succ (Nat.le_succ_of_le hlength))

end AngleLexer
