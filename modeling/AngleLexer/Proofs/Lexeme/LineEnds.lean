import AngleLexer.Proofs.Lexeme.Rules
import AngleLexer.Proofs.StringLiteral.Broken

/-!
# Lexemes and line ends

Lines may end with a line feed, or with a return and a line feed (`Text.withReturns`). No token but an
invalid one goes beyond its line (`Lexeme.Accepts.isInLine`, `Lexeme.Closes.isInLine`), and a return
behind a token ends it like a line feed, so a text starts with the same token either way
(`Lexeme.ofText?_withReturns`). White space and a comment with an end mark take the returns in. A
comment that ends with its line takes in only the return that ends the line: the line feed behind it
is left for what follows (`Lexeme.Starts.lineComment_withReturns`).
-/

namespace AngleLexer

/-! ## Returns -/

namespace Text

/-- The text with a return in front of every line feed. -/
def withReturns (t : Text) : Text :=
  t.flatMap fun c => if c = '\n' then ['\r', '\n'] else [c]

/-- No line ends within the text, neither with a line feed nor with a return. -/
def IsInLine (t : Text) : Prop := ∀ c ∈ t, Lexeme.isLineEnd c = false

variable {t x : Text}

@[simp] theorem withReturns_lineFeed (t : Text) :
    withReturns ('\n' :: t) = '\r' :: '\n' :: t.withReturns := rfl

theorem withReturns_cons {c : Char} (h : c ≠ '\n') (t : Text) :
    withReturns (c :: t) = c :: t.withReturns := by
  rw [withReturns, List.flatMap_cons, if_neg h]
  rfl

theorem withReturns_append (s t : Text) : (s ++ t).withReturns = s.withReturns ++ t.withReturns :=
  List.flatMap_append

theorem withReturns_ne_nil (h : t ≠ []) : t.withReturns ≠ [] := by
  obtain ⟨c, t, rfl⟩ := List.exists_cons_of_ne_nil h
  by_cases hc : c = '\n'
  · rw [hc]
    exact List.cons_ne_nil _ _
  · rw [withReturns_cons hc]
    exact List.cons_ne_nil _ _

/-- The first character is the same, or a return in front of it. -/
theorem head?_of_withReturns {c : Char} (h : t.withReturns.head? = some c) :
    c = '\r' ∧ t.head? = some '\n' ∨ t.head? = some c := by
  rcases t with _ | ⟨d, t⟩
  · cases h
  · by_cases hd : d = '\n'
    · subst hd
      exact Or.inl ⟨(Option.some.inj h).symm, rfl⟩
    · rw [withReturns_cons hd] at h
      exact Or.inr h

/-! ### Texts within a line -/

/-- What does not hold of the two characters that end lines holds only within a line. -/
theorem isInLine_of_forall {p : Char → Bool} (hreturn : p '\r' = false) (hfeed : p '\n' = false)
    (h : ∀ c ∈ t, p c = true) : t.IsInLine := by
  intro c hc
  refine Bool.not_eq_true _ ▸ fun hend => ?_
  have hp := h c hc
  rcases Lexeme.isLineEnd_iff.1 hend with rfl | rfl
  · rw [hreturn] at hp
    cases hp
  · rw [hfeed] at hp
    cases hp

/-- Where no line feed is, no return is put. -/
theorem withReturns_of_lineFeed_not_mem (h : '\n' ∉ t) : t.withReturns = t := by
  induction t with
  | nil => rfl
  | cons c t ih =>
    obtain ⟨hc, ht⟩ := not_or.1 (mt List.mem_cons.2 h)
    rw [withReturns_cons (Ne.symm hc), ih ht]

theorem IsInLine.withReturns (h : t.IsInLine) : t.withReturns = t :=
  withReturns_of_lineFeed_not_mem fun hfeed => nomatch h _ hfeed

/-- A text within a line is at the start of both texts or of neither. -/
theorem IsInLine.isPrefix_withReturns_iff (h : x.IsInLine) : x <+: t.withReturns ↔ x <+: t := by
  induction x generalizing t with
  | nil => exact iff_of_true List.nil_prefix List.nil_prefix
  | cons c x ih =>
    obtain ⟨hc, hx⟩ := List.forall_mem_cons.1 h
    rcases t with _ | ⟨d, t⟩
    · exact Iff.rfl
    · by_cases hd : d = '\n'
      · subst hd
        rw [withReturns_lineFeed, List.cons_prefix_cons, List.cons_prefix_cons]
        refine iff_of_false ?_ ?_ <;> rintro ⟨rfl, -⟩ <;> cases hc
      · rw [withReturns_cons hd, List.cons_prefix_cons, List.cons_prefix_cons, ih hx]

end Text

/-- A return at the end of a line does not move what follows the line. -/
theorem Position.after_withReturns (p : Position) (t : Text) : p.after t.withReturns = p.after t := by
  induction t generalizing p with
  | nil => rfl
  | cons c t ih =>
    by_cases hc : c = '\n'
    · subst hc
      exact ih (p.advance '\n')
    · rw [Text.withReturns_cons hc]
      exact ih (p.advance c)

/-! ## Tokens stay on their line -/

theorem IsWord.isInLine {x : Text} (h : IsWord x) : x.IsInLine :=
  Text.isInLine_of_forall (by decide) (by decide) h.isWordRest

theorem Symbol.isInLine (a : Symbol) : a.text.IsInLine := by
  have hall : (all.all fun a => a.text.all fun c => !Lexeme.isLineEnd c) = true := by decide
  intro c hc
  have ha := List.all_eq_true.1 hall a a.mem_all
  exact Bool.not_eq_true' _ ▸ List.all_eq_true.1 ha c hc

namespace Lexeme

theorem IsNameTail.isInLine {x : Text} (h : IsNameTail x) : x.IsInLine := by
  obtain ⟨name, rfl, -, hname⟩ := h
  intro c hc
  rcases List.mem_append.1 hc with hc | hc
  · exact (hname c hc).2
  · rw [List.mem_singleton.1 hc]
    rfl

theorem IsCharTail.isInLine {x : Text} (h : IsCharTail x) : x.IsInLine := by
  induction h with
  | close => exact List.forall_mem_singleton.2 rfl
  | escape inLine _ ih => exact List.forall_mem_cons.2 ⟨rfl, List.forall_mem_cons.2 ⟨inLine, ih⟩⟩
  | plain _ _ inLine _ ih => exact List.forall_mem_cons.2 ⟨inLine, ih⟩

/-- No rule accepts a text that goes beyond its line. -/
theorem Accepts.isInLine {k : Kind} {x : Text} (h : Accepts k x) : x.IsInLine := by
  cases h with
  | keyword w => exact w.isWord.isInLine
  | symbol a => exact a.isInLine
  | identifier isWord => exact isWord.isInLine
  | escapedName tail => exact List.forall_mem_cons.2 ⟨rfl, tail.isInLine⟩
  | charLiteral tail => exact List.forall_mem_cons.2 ⟨rfl, tail.isInLine⟩
  | number isNumber => exact fun c hc => isNumber.isLineEnd_eq_false hc

/-- A string literal ends on the line on which it begins. -/
theorem Closes.isInLine {d : Int} {body : Text} (h : Closes d body) : body.IsInLine := by
  intro c hc
  have hbreak := h.goesThrough.isLineBreak_eq_false c hc
  refine Bool.not_eq_true _ ▸ fun hend => ?_
  rcases isLineEnd_iff.1 hend with rfl | rfl <;> cases hbreak

theorem isInLine_quoted {body : Text} (h : body.IsInLine) : (quoted body).IsInLine := by
  refine List.forall_mem_cons.2 ⟨rfl, fun c hc => ?_⟩
  rcases List.mem_append.1 hc with hc | hc
  · exact h c hc
  · rw [List.mem_singleton.1 hc]
    rfl

/-! ## The same token -/

variable {t x : Text}

/-- A return is put only where there was white space already. -/
theorem isSpace_head?_withReturns (h : ∀ c ∈ t.head?, isSpace c = false) :
    ∀ c ∈ t.withReturns.head?, isSpace c = false := by
  intro c hc
  rcases Text.head?_of_withReturns hc with ⟨-, hfeed⟩ | hc
  · cases h _ hfeed
  · exact h c hc

/-- The mark of a comment is on one line. -/
theorem isPrefix_withReturns_mark_iff {c : Char} (hc : isLineEnd c = false) :
    ['/', c] <+: t.withReturns ↔ ['/', c] <+: t :=
  Text.IsInLine.isPrefix_withReturns_iff
    (List.forall_mem_cons.2 ⟨rfl, List.forall_mem_singleton.2 hc⟩)

theorem IsPlain.withReturns (h : IsPlain t) : IsPlain t.withReturns where
  noSpace := isSpace_head?_withReturns h.noSpace
  noLineComment := mt (isPrefix_withReturns_mark_iff rfl).1 h.noLineComment
  noBlockComment := mt (isPrefix_withReturns_mark_iff rfl).1 h.noBlockComment

end Lexeme

/-- If all words stay on their line, the longest one that the text starts with is the same. -/
theorem LongestPrefix.withReturns {IsWord : Text → Prop} {t : Text} {n : Nat}
    (h : LongestPrefix IsWord t n) (hline : ∀ x, IsWord x → x.IsInLine) :
    LongestPrefix IsWord t.withReturns n ∧ t.withReturns.take n = t.take n := by
  have hlength : (t.take n).length = n := List.length_take_of_le h.le
  have hprefix := (hline _ h.word).isPrefix_withReturns_iff.2 (List.take_prefix n t)
  have htake := Text.take_eq_of_isPrefix hprefix hlength
  refine ⟨⟨?_, htake.symm ▸ h.word, ?_⟩, htake⟩
  · rw [← hlength]
    exact hprefix.length_le
  · intro x hx hxt
    exact h.longest x hx ((hline x hx).isPrefix_withReturns_iff.1 hxt)

namespace Lexeme

variable {t x : Text}

/-- What the rules make of a text they make of it with returns as well. -/
theorem Starts.token_withReturns {k : Kind} (h : Starts t (.token k) x) (hk : k ≠ .invalid) :
    Starts t.withReturns (.token k) x ∧ x.IsInLine := by
  cases h with
  | openComment _ _ | unknown _ _ => exact absurd rfl hk
  | rule plain longest makes =>
    obtain ⟨hlongest, htake⟩ := longest.withReturns fun y ⟨k, hy⟩ => hy.isInLine
    rw [← htake] at makes ⊢
    exact ⟨.rule plain.withReturns hlongest makes, makes.accepts.isInLine⟩

/-- What begins with a quote is a string literal or invalid. -/
theorem eq_stringLiteral_of_quote {rest : Text} {k : Kind} {n : Nat}
    (h : ofText? ('"' :: rest) = some ⟨.token k, n⟩) (hk : k ≠ .invalid) : k = .stringLiteral := by
  have hstring : string rest = ⟨.token k, n⟩ := Option.some.inj h
  obtain ⟨hcategory, -⟩ := Lexeme.mk.inj hstring
  split at hcategory
  · exact (Category.token.inj hcategory).symm
  · exact absurd (Category.token.inj hcategory).symm hk

/-- **A text starts with the same token** whether its lines end with returns or not, and the token
is on one line, unless it is invalid. -/
theorem ofText?_withReturns {k : Kind} {n : Nat} (h : ofText? t = some ⟨.token k, n⟩)
    (hk : k ≠ .invalid) :
    ofText? t.withReturns = some ⟨.token k, n⟩ ∧ Text.IsInLine (t.take n) := by
  by_cases hquote : t.head? = some '"'
  · obtain ⟨rest, rfl⟩ := List.head?_eq_some_iff.1 hquote
    obtain rfl := eq_stringLiteral_of_quote h hk
    obtain ⟨body, u, htext, rfl, hcloses⟩ := ofText?_eq_stringLiteral_iff_closes.1 h
    have hline := isInLine_quoted hcloses.isInLine
    rw [htext, List.take_left, Text.withReturns_append, hline.withReturns]
    exact ⟨ofText?_eq_stringLiteral_iff_closes.2 ⟨body, _, rfl, rfl, hcloses⟩, hline⟩
  · have hlength : (t.take n).length = n := List.length_take_of_le (width_le h)
    have hstarts : Starts t (.token k) (t.take n) :=
      (starts_iff (ne_nil_of_ofText? h) hquote).2 ⟨by rwa [hlength], List.take_prefix _ _⟩
    obtain ⟨hreturns, hline⟩ := hstarts.token_withReturns hk
    have hquote' : t.withReturns.head? ≠ some '"' := fun hc =>
      (Text.head?_of_withReturns hc).elim nofun hquote
    have hofText := (hreturns.ofText?_eq (Text.withReturns_ne_nil (ne_nil_of_ofText? h)) hquote').1
    rw [hlength] at hofText
    exact ⟨hofText, hline⟩

/-! ## Trivia -/

/-- A text that starts with trivia starts with no quote. -/
theorem Starts.head?_of_trivia {kind : TriviaKind} (h : Starts t (.trivia kind) x) :
    t ≠ [] ∧ t.head? ≠ some '"' := by
  cases h with
  | @whitespace x u split ne_nil space _ =>
    obtain ⟨c, x, rfl⟩ := List.exists_cons_of_ne_nil ne_nil
    subst split
    refine ⟨List.cons_ne_nil _ _, fun hc => ?_⟩
    have hspace := space c List.mem_cons_self
    rw [Option.some.inj hc] at hspace
    cases hspace
  | lineComment mark _ _ _ | blockComment mark _ _ =>
    obtain ⟨u, rfl⟩ := mark
    exact ⟨List.cons_ne_nil _ _, nofun⟩

theorem starts_trivia_iff {kind : TriviaKind} :
    Starts t (.trivia kind) x ↔ ofText? t = some ⟨.trivia kind, x.length⟩ ∧ x <+: t := by
  constructor
  · intro h
    exact h.ofText?_eq h.head?_of_trivia.1 h.head?_of_trivia.2
  · rintro ⟨hl, hx⟩
    refine (starts_iff (ne_nil_of_ofText? hl) fun hquote => ?_).2 ⟨hl, hx⟩
    obtain ⟨rest, rfl⟩ := List.head?_eq_some_iff.1 hquote
    have hstring : string rest = ⟨.trivia kind, x.length⟩ := Option.some.inj hl
    cases (Lexeme.mk.inj hstring).1

theorem isSpace_withReturns (h : ∀ c ∈ x, isSpace c = true) : ∀ c ∈ x.withReturns, isSpace c = true := by
  intro c hc
  obtain ⟨d, hd, hcd⟩ := List.mem_flatMap.1 hc
  split at hcd
  · rcases List.mem_cons.1 hcd with rfl | hcd
    · rfl
    · rw [List.mem_singleton.1 hcd]
      rfl
  · rw [List.mem_singleton.1 hcd]
    exact h d hd

/-- White space takes the returns in. -/
theorem Starts.whitespace_withReturns (h : Starts t (.trivia .whitespace) x) :
    Starts t.withReturns (.trivia .whitespace) x.withReturns := by
  cases h with
  | whitespace split ne_nil space stop =>
    subst split
    exact .whitespace (Text.withReturns_append _ _) (Text.withReturns_ne_nil ne_nil)
      (isSpace_withReturns space) (isSpace_head?_withReturns stop)

theorem IsBlockTail.withReturns (h : IsBlockTail x) : IsBlockTail x.withReturns := by
  induction h with
  | close => exact .close
  | @inside c x goesOn _ ih =>
    by_cases hfeed : c = '\n'
    · subst hfeed
      exact .inside nofun (.inside nofun ih)
    · rw [Text.withReturns_cons hfeed]
      exact .inside (fun hstar hslash => (Text.head?_of_withReturns hslash).elim nofun (goesOn hstar)) ih

/-- A comment with an end mark is its opening mark and what goes through the first end mark. -/
theorem starts_blockComment_iff : Starts t (.trivia .blockComment) x ↔
    ∃ y u, x = '/' :: '*' :: y ∧ t = x ++ u ∧ IsBlockTail y := by
  constructor
  · intro h
    cases h with
    | @blockComment n mark closed first =>
      obtain ⟨v, rfl⟩ := mark
      obtain ⟨y, u, rfl, hy, hlength⟩ :=
        (finds_blockEnd? _ _).1 (blockEnd?_eq_some_iff.2 ⟨n, rfl, closed, first⟩)
      have htake : (['/', '*'] ++ (y ++ u)).take (n + 4) = '/' :: '*' :: y :=
        congrArg ('/' :: '*' :: ·) (List.take_left' hlength.symm)
      exact ⟨y, u, htake, by rw [htake]; rfl, hy⟩
  · rintro ⟨y, u, rfl, rfl, hy⟩
    have hend := (finds_blockEnd? _ _).2 ⟨y, u, rfl, hy, rfl⟩
    refine starts_trivia_iff.2 ⟨congrArg some ?_, List.prefix_append _ _⟩
    change first '/' ('*' :: (y ++ u)) = ⟨.trivia .blockComment, y.length + 2⟩
    rw [first_eq (by decide) (by decide), comment?_of_blockEnd? hend]
    rfl

/-- So does a comment with an end mark. -/
theorem Starts.blockComment_withReturns (h : Starts t (.trivia .blockComment) x) :
    Starts t.withReturns (.trivia .blockComment) x.withReturns := by
  obtain ⟨y, u, rfl, rfl, hy⟩ := starts_blockComment_iff.1 h
  rw [starts_blockComment_iff]
  exact ⟨Text.withReturns y, u.withReturns, rfl, Text.withReturns_append _ _, hy.withReturns⟩

/-- **A comment that ends with its line** takes in the return of that line, but not the line feed. -/
theorem Starts.lineComment_withReturns (h : Starts t (.trivia .lineComment) x) :
    (t = x ∧ t.withReturns = x ∧ Starts t.withReturns (.trivia .lineComment) x) ∨
      ∃ u : Text, t = x ++ '\n' :: u ∧ t.withReturns = x ++ ['\r'] ++ '\n' :: u.withReturns ∧
        Starts t.withReturns (.trivia .lineComment) (x ++ ['\r']) := by
  cases h with
  | @lineComment x u mark split inLine stop =>
    have hmark := (isPrefix_withReturns_mark_iff rfl).2 mark
    have hline := Text.withReturns_of_lineFeed_not_mem inLine
    subst split
    rcases u with _ | ⟨c, u⟩
    · rw [List.append_nil] at hmark ⊢
      exact Or.inl ⟨rfl, hline, .lineComment (u := []) hmark (by rw [hline, List.append_nil]) inLine
        fun c hc => nomatch hc⟩
    · obtain rfl := stop c rfl
      have hsplit : (x ++ '\n' :: u).withReturns = x ++ ['\r'] ++ '\n' :: Text.withReturns u := by
        rw [Text.withReturns_append, hline, List.append_assoc]
        rfl
      refine Or.inr ⟨u, rfl, hsplit, .lineComment hmark hsplit ?_ ?_⟩
      · rw [List.mem_append, List.mem_singleton, not_or]
        exact ⟨inLine, by decide⟩
      · intro c hc
        exact (Option.some.inj hc).symm

end Lexeme

end AngleLexer
