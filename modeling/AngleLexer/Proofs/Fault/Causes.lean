import AngleLexer.Proofs.Fault.Extent
import AngleLexer.Proofs.Reader.Ahead

/-!
# The causes of faults

An invalid token does not say why it is invalid; its fault finds the cause in its first characters.
`Cause.Arises` says for each cause how it comes about in the text ahead. A token is invalid exactly if
one of the causes has come about where it begins, and that cause is the one that its text betrays
(`Cause.arises_iff`): the three ways to make an invalid token leave different first characters.

After a broken string literal reading goes on, whereas the other causes use up all of the source. So
they occur once at most, and only in the last token (`Text.faults_causes`).
-/

namespace AngleLexer

/-! ## One token -/

/-- How the causes come about. In front of the text `ahead` there is no token, and the invalid token
that stands there instead has the text at the end. -/
inductive Cause.Arises (ahead : Text) : Cause → Text → Prop
  /-- the scan of a string literal has stopped before it came to a closing quote; what was scanned is
  invalid -/
  | openString {rest : Text} (quote : ahead = '"' :: rest)
    (broken : (Lexeme.stringLiteral rest).finish ≠ .closed) :
    Arises ahead .openString (ahead.take (Lexeme.stringLiteral rest).width)
  /-- a comment is opened, and behind its opening mark there is no end mark -/
  | openComment (mark : ['/', '*'] <+: ahead)
    (unclosed : ∀ m, ¬ ['*', '/'] <+: ahead.drop (m + 2)) : Arises ahead .openComment ahead
  /-- something is ahead, but it is no white space, comment or string literal, and no rule accepts
  any part of it -/
  | unknownCharacter (ne_nil : ahead ≠ []) (noQuote : ahead.head? ≠ some '"')
    (plain : Lexeme.IsPlain ahead) (unaccepted : ∀ k x, Lexeme.Accepts k x → ¬ x <+: ahead) :
    Arises ahead .unknownCharacter ahead

namespace Cause

theorem ofText_of_plain {t : Text} (hquote : t.head? ≠ some '"') (hplain : Lexeme.IsPlain t) :
    ofText t = unknownCharacter := by
  unfold ofText
  split
  · exact absurd rfl hquote
  · rename_i rest
    exact absurd ⟨rest, rfl⟩ hplain.noBlockComment
  · rfl

/-- Where a cause comes about, the lexeme ahead is invalid, and its text betrays the cause. -/
theorem Arises.ofText?_eq {cause : Cause} {t x : Text} (h : cause.Arises t x) :
    Lexeme.ofText? t = some ⟨.token .invalid, x.length⟩ ∧ x <+: t ∧ cause = ofText x := by
  cases h with
  | @openString rest quote broken =>
    have hlexeme : Lexeme.ofText? t = some ⟨.token .invalid, (Lexeme.stringLiteral rest).width⟩ := by
      subst quote
      change some (Lexeme.string rest) = _
      rw [Lexeme.string, if_neg broken]
    rw [List.length_take_of_le (Lexeme.width_le hlexeme)]
    refine ⟨hlexeme, List.take_prefix _ _, ?_⟩
    subst quote
    rfl
  | openComment mark unclosed =>
    obtain ⟨rest, rfl⟩ := mark
    have hquote : ('/' :: '*' :: rest).head? ≠ some '"' := by
      rw [List.head?_cons]
      decide
    obtain ⟨hlexeme, hprefix⟩ :=
      (Lexeme.Starts.openComment ⟨rest, rfl⟩ unclosed).ofText?_eq (List.cons_ne_nil _ _) hquote
    exact ⟨hlexeme, hprefix, rfl⟩
  | unknownCharacter ne_nil noQuote plain unaccepted =>
    obtain ⟨hlexeme, hprefix⟩ := (Lexeme.Starts.unknown plain unaccepted).ofText?_eq ne_nil noQuote
    exact ⟨hlexeme, hprefix, (ofText_of_plain noQuote plain).symm⟩

/-- An invalid lexeme has a cause. -/
theorem exists_arises {t x : Text} (h : Lexeme.ofText? t = some ⟨.token .invalid, x.length⟩)
    (hx : x <+: t) : ∃ cause : Cause, cause.Arises t x := by
  have hne := Lexeme.ne_nil_of_ofText? h
  by_cases hquote : t.head? = some '"'
  · obtain ⟨rest, rfl⟩ := List.head?_eq_some_iff.1 hquote
    obtain ⟨hkind, hwidth⟩ := Lexeme.mk.inj (Option.some.inj h)
    have hbroken : (Lexeme.stringLiteral rest).finish ≠ .closed := by
      intro hclosed
      rw [if_pos hclosed] at hkind
      cases hkind
    have harises : openString.Arises ('"' :: rest) _ := .openString rfl hbroken
    rw [Text.take_eq_of_isPrefix hx hwidth.symm] at harises
    exact ⟨_, harises⟩
  · cases (Lexeme.starts_iff hne hquote).2 ⟨h, hx⟩ with
    | openComment mark unclosed => exact ⟨_, .openComment mark unclosed⟩
    | rule _ _ makes => cases makes.accepts
    | unknown plain unaccepted => exact ⟨_, .unknownCharacter hne hquote plain unaccepted⟩

/-- **A cause comes about exactly where the lexeme is invalid** and betrays it. -/
theorem arises_iff {cause : Cause} {t x : Text} :
    cause.Arises t x ↔
      Lexeme.ofText? t = some ⟨.token .invalid, x.length⟩ ∧ x <+: t ∧ cause = ofText x := by
  refine ⟨Arises.ofText?_eq, ?_⟩
  rintro ⟨hlexeme, hprefix, rfl⟩
  obtain ⟨cause, h⟩ := exists_arises hlexeme hprefix
  obtain ⟨-, -, rfl⟩ := h.ofText?_eq
  exact h

/-- But for a broken string literal, all of the text is invalid. -/
theorem Arises.eq_ahead {cause : Cause} {t x : Text} (h : cause.Arises t x)
    (hcause : cause ≠ .openString) : x = t := by
  cases h with
  | openString _ _ => exact absurd rfl hcause
  | openComment _ _ | unknownCharacter _ _ _ _ => rfl

end Cause

/-- The fault that a token is has the text and the place of the token, and the cause is that which
the text betrays. -/
theorem Token.fault?_eq_some_iff {t : Token} {f : Fault} :
    t.fault? = some f ↔ t.kind = .invalid ∧ f = ⟨.ofText t.text, t.text, t.span⟩ := by
  rw [fault?, isInvalid]
  split
  · rename_i h
    rw [Option.some.injEq, eq_comm]
    exact (and_iff_right (of_decide_eq_true h)).symm
  · rename_i h
    constructor
    · intro hf
      cases hf
    · rintro ⟨hkind, -⟩
      exact absurd (decide_eq_true hkind) h

/-! ## All tokens -/

namespace Reader

variable {r : Reader} {before after : List Piece} {t : Token}

/-- A token is a fault exactly if a cause has come about where it begins. -/
theorem fault?_iff_arises (h : r.pieces.1 = before ++ .token t :: after) (cause : Cause) :
    (∃ f, t.fault? = some f ∧ f.cause = cause) ↔
      cause.Arises (t.text ++ (after.map Piece.text).flatten) t.text := by
  have hlexeme : Lexeme.ofText? (t.text ++ (after.map Piece.text).flatten) =
      some ⟨.token t.kind, t.text.length⟩ := ofText?_of_pieces h
  rw [Cause.arises_iff]
  constructor
  · rintro ⟨f, hf, rfl⟩
    obtain ⟨hkind, rfl⟩ := Token.fault?_eq_some_iff.1 hf
    exact ⟨hkind ▸ hlexeme, List.prefix_append _ _, rfl⟩
  · rintro ⟨hinvalid, -, rfl⟩
    have hkind : t.kind = .invalid := by
      rw [hlexeme] at hinvalid
      exact Category.token.inj (Lexeme.mk.inj (Option.some.inj hinvalid)).1
    exact ⟨_, Token.fault?_eq_some_iff.2 ⟨hkind, rfl⟩, rfl⟩

/-- Behind a fault with another cause than a broken string literal there is nothing. -/
theorem eq_nil_of_fault? (h : r.pieces.1 = before ++ .token t :: after) {f : Fault}
    (hf : t.fault? = some f) (hcause : f.cause ≠ .openString) : after = [] := by
  have harises := (fault?_iff_arises h f.cause).1 ⟨f, hf, rfl⟩
  have hflat : (after.map Piece.text).flatten = [] := by
    simpa using harises.eq_ahead hcause
  rcases after with _ | ⟨p, after⟩
  · rfl
  · have hp : p ∈ r.pieces.1 := by
      rw [h]
      simp
    exact absurd (List.append_eq_nil_iff.1 hflat).1 ((pieces_tile r).text_ne_nil_of_mem hp)

end Reader

namespace Text

/-- There is a fault for each invalid token, in order. -/
theorem map_faults (source : Text) :
    (source.faults.map fun f => (f.text, f.span)) =
      (source.tokens.filter Token.isInvalid).map fun t => (t.text, t.span) := by
  rw [faults]
  induction source.tokens with
  | nil => rfl
  | cons t ts ih =>
    rcases hinvalid : t.isInvalid with _ | _
    · have hfault : t.fault? = none := by
        rw [Token.fault?, hinvalid, if_neg Bool.false_ne_true]
      rw [List.filterMap_cons_none hfault, ih, List.filter_cons_of_neg (Bool.not_eq_true _ ▸ hinvalid)]
    · have hfault : t.fault? = some ⟨.ofText t.text, t.text, t.span⟩ := by
        rw [Token.fault?, if_pos hinvalid]
      rw [List.filterMap_cons_some hfault, List.map_cons, ih, List.filter_cons_of_pos hinvalid]
      rfl

/-- A fault with another cause than a broken string literal is the last thing in the source. -/
theorem exists_pieces_of_fault {source : Text} {i : Nat} {f : Fault}
    (hi : source.faults[i]? = some f) (hcause : f.cause ≠ .openString) :
    i + 1 = source.faults.length ∧ ∃ before t,
      (Reader.ofText source).pieces.1 = before ++ [.token t] ∧ t.fault? = some f := by
  obtain ⟨hlt, hget⟩ := List.getElem?_eq_some_iff.1 hi
  -- the faults up to this one come from the pieces up to its own
  have hsplit : source.faults = source.faults.take i ++ f :: source.faults.drop (i + 1) := by
    rw [← hget, ← List.drop_eq_getElem_cons hlt, List.take_append_drop]
  rw [faults_eq] at hsplit
  obtain ⟨earlier, later, hcut, -, hlater⟩ := List.filterMap_eq_append_iff.1 hsplit
  obtain ⟨between, p, after, rfl, -, hp, hafter⟩ := List.filterMap_eq_cons_iff.1 hlater
  obtain ⟨t, rfl, ht, -, -⟩ := Piece.eq_token_of_fault? hp
  rw [← List.append_assoc] at hcut
  obtain rfl := Reader.eq_nil_of_fault? hcut ht hcause
  refine ⟨?_, _, t, hcut, ht⟩
  have hlength := congrArg List.length hafter
  rw [← faults_eq, List.filterMap_nil, List.length_nil, List.length_drop] at hlength
  omega

/-- **Causes are real.** A source has a fault for each invalid token, in order. A token is a fault with
a certain cause exactly if that cause comes about in the text from where the token begins. Every fault
but the last is a broken string literal; a fault with another cause is the last one, comes from the
last token, and nothing is behind it in the source. -/
theorem faults_causes (source : Text) :
    ((source.faults.map fun f => (f.text, f.span)) =
      (source.tokens.filter Token.isInvalid).map fun t => (t.text, t.span)) ∧
    (∀ before t after, (Reader.ofText source).pieces.1 = before ++ .token t :: after →
      ∃ ahead, source = (before.map Piece.text).flatten ++ ahead ∧
        ∀ cause : Cause, (∃ f, t.fault? = some f ∧ f.cause = cause) ↔ cause.Arises ahead t.text) ∧
    (∀ f ∈ source.faults.dropLast, f.cause = .openString) ∧
    ∀ (i : Nat) (f : Fault), source.faults[i]? = some f → f.cause ≠ .openString →
      i + 1 = source.faults.length ∧ ∃ before t,
        (Reader.ofText source).pieces.1 = before ++ [.token t] ∧
        source.tokens.getLast? = some t ∧ t.fault? = some f ∧
        source = (before.map Piece.text).flatten ++ f.text := by
  have hflat : _ = source := Reader.flatten_pieces (Reader.ofText source)
  refine ⟨map_faults source, ?_, ?_, ?_⟩
  · intro before t after h
    refine ⟨_, ?_, Reader.fault?_iff_arises h⟩
    rw [← hflat, h, List.map_append, List.flatten_append]
    rfl
  · intro f hf
    by_contra hcause
    obtain ⟨i, hi, rfl⟩ := List.getElem_of_mem hf
    have hi' := hi
    rw [List.length_dropLast] at hi'
    have hget : source.faults[i]? = some source.faults.dropLast[i] := by
      rw [List.getElem_dropLast, List.getElem?_eq_getElem]
    obtain ⟨hlast, -⟩ := exists_pieces_of_fault hget hcause
    omega
  · intro i f hi hcause
    obtain ⟨hlast, before, t, hpieces, ht⟩ := exists_pieces_of_fault hi hcause
    refine ⟨hlast, before, t, hpieces, ?_, ht, ?_⟩
    · rw [tokens, Reader.tokens, hpieces, List.filterMap_append]
      exact List.getLast?_concat
    · obtain ⟨-, rfl⟩ := Token.fault?_eq_some_iff.1 ht
      rw [← hflat, hpieces]
      simp [Piece.text]

example : (faults "\"a\n\"\\q /*/".toList).map Fault.cause =
    [.openString, .openString, .openComment] := by
  decide +kernel

end Text

end AngleLexer
