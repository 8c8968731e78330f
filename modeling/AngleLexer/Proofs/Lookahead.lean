import AngleLexer.Text.Basic

/-!
# Looking ahead

Where a lexeme ends is decided by the text behind it, but by little of that text: by no more than
three characters (`lookahead`), and only in white space by a line feed. `StopsLike s t` says that by
this measure `t` ends whatever `s` ends, so that it may stand in its place. That is so if it begins
like `s`, if it is the end of the input, and if it begins with a line feed.

Two uses are the same for many rules: a short mark is seen in front of both texts or of neither
(`StopsLike.prefix_append`), and a run of characters that ends in front of the one ends in front of
the other (`Text.takeWhile_replace`).
-/

namespace AngleLexer

/-- The number of characters behind a lexeme that can decide where it ends. -/
def lookahead : Nat := 3

/-- The text `t` ends whatever the text `s` ends: what it begins with, as far as that can matter,
`s` begins with as well. -/
structure StopsLike (s t : Text) : Prop where
  /-- nothing takes the place of the end of the input -/
  eq_nil : s = [] → t = []
  /-- what can matter is the same in both -/
  agree : ∀ w, w <+: t → w.length ≤ lookahead → '\n' ∉ w → w <+: s

namespace StopsLike

variable {s t : Text}

/-! ## Which texts do -/

/-- What begins like a text, as far as a rule can see, stops like it. -/
theorem of_take_isPrefix (h : t.take lookahead <+: s) : StopsLike s t where
  eq_nil := by
    rintro rfl
    have hnil : t.take lookahead = [] := List.prefix_nil.1 h
    rcases t with _ | ⟨c, t⟩
    · rfl
    · cases hnil
  agree := by
    intro w hw hlength _
    rw [List.prefix_iff_eq_take.1 hw]
    exact (List.take_prefix_take_left hlength).trans h

/-- So does what begins the text, down to the end of the input. -/
theorem of_isPrefix (h : t <+: s) : StopsLike s t :=
  of_take_isPrefix ((List.take_prefix _ _).trans h)

/-- A line feed stops like any text but the end of the input. -/
theorem lineFeed (h : s ≠ []) (t : Text) : StopsLike s ('\n' :: t) where
  eq_nil := fun hnil => absurd hnil h
  agree := by
    intro w hw _ hfeed
    rcases w with _ | ⟨c, w⟩
    · exact List.nil_prefix
    · obtain ⟨rfl, -⟩ := List.cons_prefix_cons.1 hw
      exact absurd List.mem_cons_self hfeed

/-! ## What is seen -/

/-- The first character that ends something does so in either text, or it is a line feed. -/
theorem head? (h : StopsLike s t) {c : Char} (hc : t.head? = some c) :
    c = '\n' ∨ s.head? = some c := by
  by_cases hfeed : c = '\n'
  · exact Or.inl hfeed
  · rcases t with _ | ⟨d, t⟩
    · cases hc
    · obtain rfl : d = c := Option.some.inj hc
      have hone : [d].length ≤ lookahead := Nat.succ_le_succ (Nat.zero_le 2)
      obtain ⟨rest, rfl⟩ := h.agree [d] ⟨t, rfl⟩ hone
        (fun hmem => hfeed (List.mem_singleton.1 hmem).symm)
      exact Or.inr rfl

/-- A short text without a line feed that begins before the replaced text is seen in either. -/
theorem prefix_append {v m : Text} (h : StopsLike s t) (hm : m <+: v ++ t)
    (hlength : m.length ≤ lookahead) (hfeed : '\n' ∉ m) : m <+: v ++ s := by
  rcases Nat.le_total m.length v.length with hle | hle
  · exact (List.prefix_of_prefix_length_le hm (List.prefix_append v t) hle).trans
      (List.prefix_append v s)
  · obtain ⟨x, rfl⟩ := List.prefix_of_prefix_length_le (List.prefix_append v t) hm hle
    rw [List.length_append] at hlength
    refine (List.prefix_append_right_inj v).2 (h.agree x ((List.prefix_append_right_inj v).1 hm) ?_ ?_)
    · exact Nat.le_of_add_left_le hlength
    · exact fun hx => hfeed (List.mem_append_right v hx)

/-- A run of characters that cannot be line feeds does not go on where another text stops alike. -/
theorem goesOn {p : Char → Bool} (h : StopsLike s t) (hfeed : p '\n' = false) :
    ∀ c, p c = true → t.head? = some c → s.head? = some c := by
  intro c hc hhead
  rcases h.head? hhead with rfl | hhead
  · rw [hfeed] at hc
    cases hc
  · exact hhead

end StopsLike

/-! ## Runs of characters -/

namespace Text

variable {s t v : Text} {p : Char → Bool}

/-- A run that ends in front of a text ends there in front of another one as well, unless the other
text goes on with a character of the run. -/
theorem takeWhile_replace
    (hstop : ∀ c, p c = true → t.head? = some c → s.head? = some c)
    (h : ((v ++ s).takeWhile p).length ≤ v.length) :
    (v ++ t).takeWhile p = (v ++ s).takeWhile p := by
  induction v with
  | nil =>
    have hnil : s.takeWhile p = [] := List.length_eq_zero_iff.1 (Nat.le_zero.1 h)
    rw [List.nil_append, List.nil_append, hnil]
    rcases t with _ | ⟨c, t⟩
    · rfl
    · refine List.takeWhile_cons_of_neg fun hc => ?_
      obtain ⟨s, rfl⟩ := List.head?_eq_some_iff.1 (hstop c hc rfl)
      rw [List.takeWhile_cons_of_pos hc] at hnil
      cases hnil
  | cons c v ih =>
    rw [List.cons_append, List.takeWhile_cons] at h ⊢
    rw [List.cons_append, List.takeWhile_cons]
    split
    · rename_i hc
      rw [if_pos hc, List.length_cons] at h
      rw [ih (Nat.le_of_succ_le_succ h)]
    · rfl

/-- The same of a run that is cut off after so many characters. -/
theorem takeWhile_take_replace
    (hstop : ∀ c, p c = true → t.head? = some c → s.head? = some c) (n : Nat)
    (h : (((v ++ s).take n).takeWhile p).length ≤ v.length) :
    ((v ++ t).take n).takeWhile p = ((v ++ s).take n).takeWhile p := by
  have hcut : (((v ++ s).take n).takeWhile p).length ≤ n :=
    Nat.le_trans (List.takeWhile_prefix p).length_le (List.length_take_le n _)
  rw [List.take_append] at h hcut ⊢
  rw [List.take_append]
  refine takeWhile_replace ?_ ?_
  · intro c hc hhead
    rw [List.head?_take] at hhead ⊢
    split at hhead
    · cases hhead
    · rename_i hn
      rw [if_neg hn]
      exact hstop c hc hhead
  · rw [List.length_take]
    exact Nat.le_min.2 ⟨hcut, h⟩

end Text

end AngleLexer
