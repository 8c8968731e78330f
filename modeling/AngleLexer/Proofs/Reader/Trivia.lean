import AngleLexer.Proofs.Lexeme.LineEnds
import AngleLexer.Proofs.Reader.Tokens

/-!
# What stands before the end

A text without tokens consists of white space and complete comments (`IsTrivia`). Reading goes through
it piece by piece: a stretch of white space or a comment is taken off, and what is left has no tokens
either (`isTrivia_iff`). So a reader finds the end of the input exactly if nothing else is ahead
(`Reader.isEnd_readToken_iff`), and then it has taken all of it and met its comments
(`Reader.readToken_of_isTrivia`).
-/

namespace AngleLexer

/-- A text that begins at a given position consists of white space and complete comments, and these
are its comments. -/
inductive IsTrivia : Position → Text → List Comment → Prop
  /-- nothing at all -/
  | nil (p : Position) : IsTrivia p [] []
  /-- a character of white space -/
  | space {p : Position} {c : Char} {t : Text} {cs : List Comment} (isSpace : isSpace c = true)
    (rest : IsTrivia (p.after [c]) t cs) : IsTrivia p (c :: t) cs
  /-- a comment up to the line feed that ends its line, or to the end -/
  | lineComment {p : Position} {x t : Text} {cs : List Comment} (inLine : '\n' ∉ x)
    (stop : ∀ c ∈ t.head?, c = '\n') (rest : IsTrivia (p.after ('/' :: '/' :: x)) t cs) :
    IsTrivia p ('/' :: '/' :: x ++ t) (⟨'/' :: '/' :: x, p⟩ :: cs)
  /-- a comment through its end mark -/
  | blockComment {p : Position} {x t : Text} {cs : List Comment} (tail : Lexeme.IsBlockTail x)
    (rest : IsTrivia (p.after ('/' :: '*' :: x)) t cs) :
    IsTrivia p ('/' :: '*' :: x ++ t) (⟨'/' :: '*' :: x, p⟩ :: cs)

namespace IsTrivia

variable {p : Position} {x t : Text} {cs : List Comment}

theorem spaces (hx : ∀ c ∈ x, isSpace c = true) (h : IsTrivia (p.after x) t cs) :
    IsTrivia p (x ++ t) cs := by
  induction x generalizing p with
  | nil => exact h
  | cons c x ih =>
    obtain ⟨hc, hx⟩ := List.forall_mem_cons.1 hx
    exact .space hc (ih hx h)

/-- No comment begins with white space. -/
theorem of_spaces (hx : ∀ c ∈ x, isSpace c = true) (h : IsTrivia p (x ++ t) cs) :
    IsTrivia (p.after x) t cs := by
  induction x generalizing p with
  | nil => exact h
  | cons c x ih =>
    obtain ⟨hc, hx⟩ := List.forall_mem_cons.1 hx
    generalize hu : c :: x ++ t = u at h
    cases h with
    | nil => cases hu
    | space _ rest =>
      obtain ⟨rfl, rfl⟩ := List.cons.inj hu
      exact ih hx rest
    | lineComment _ _ _ | blockComment _ _ =>
      obtain ⟨rfl, -⟩ := List.cons.inj hu
      cases hc

end IsTrivia

/-- A comment that ends with its line begins with its mark. -/
theorem Lexeme.Starts.exists_lineComment {t x : Text} (h : Starts t (.trivia .lineComment) x) :
    ∃ y u, x = '/' :: '/' :: y ∧ t = x ++ u ∧ '\n' ∉ y ∧ ∀ c ∈ u.head?, c = '\n' := by
  cases h with
  | @lineComment x u mark split inLine stop =>
    obtain ⟨v, rfl⟩ := mark
    rcases x with _ | ⟨a, _ | ⟨b, y⟩⟩
    · rw [List.nil_append] at split
      subst split
      cases stop '/' rfl
    · obtain ⟨-, rfl⟩ : '/' = a ∧ '/' :: v = u := List.cons.inj split
      cases stop '/' rfl
    · obtain ⟨rfl, hv⟩ := List.cons.inj split
      obtain ⟨rfl, -⟩ := List.cons.inj hv
      rw [List.mem_cons, List.mem_cons, not_or, not_or] at inLine
      exact ⟨y, u, rfl, split, inLine.2.2, stop⟩

open Lexeme (Starts starts_blockComment_iff)

/-- **Trivia in steps**: what is not empty begins with a stretch of white space or a comment, as
reading finds it, and goes on with trivia. -/
theorem isTrivia_iff {p : Position} {t : Text} {cs : List Comment} (hne : t ≠ []) :
    IsTrivia p t cs ↔ ∃ kind x u cs', t = x ++ u ∧ Starts t (.trivia kind) x ∧
      cs = (Trivia.comment? ⟨kind, x, .ofText p x⟩).toList ++ cs' ∧ IsTrivia (p.after x) u cs' := by
  constructor
  · intro h
    cases h with
    | nil => exact absurd rfl hne
    | @space _ c t _ isSpace rest =>
      -- reading takes all the white space at once
      obtain ⟨u, ht, hstop⟩ := Text.exists_append_of_takeWhile AngleLexer.isSpace t
      have hspaces : ∀ d ∈ t.takeWhile AngleLexer.isSpace, AngleLexer.isSpace d = true :=
        fun d hd => List.mem_takeWhile_imp hd
      have hrest : IsTrivia ((p.after [c]).after (t.takeWhile AngleLexer.isSpace)) u cs :=
        IsTrivia.of_spaces hspaces (ht ▸ rest)
      exact ⟨.whitespace, c :: t.takeWhile AngleLexer.isSpace, u, cs, congrArg (c :: ·) ht,
        .whitespace (congrArg (c :: ·) ht) (List.cons_ne_nil _ _)
          (List.forall_mem_cons.2 ⟨isSpace, hspaces⟩) hstop, rfl, hrest⟩
    | @lineComment _ x u cs' inLine stop rest =>
      have hfeed : '\n' ∉ '/' :: '/' :: x := by
        rw [List.mem_cons, List.mem_cons, not_or, not_or]
        exact ⟨by decide, by decide, inLine⟩
      exact ⟨.lineComment, '/' :: '/' :: x, u, cs', rfl, .lineComment ⟨x ++ u, rfl⟩ rfl hfeed stop,
        rfl, rest⟩
    | @blockComment _ x u cs' tail rest =>
      exact ⟨.blockComment, '/' :: '*' :: x, u, cs', rfl,
        starts_blockComment_iff.2 ⟨x, u, rfl, rfl, tail⟩, rfl, rest⟩
  · rintro ⟨kind, x, u, cs', rfl, hstarts, rfl, hrest⟩
    cases kind with
    | whitespace =>
      cases hstarts with
      | whitespace _ _ space _ => exact hrest.spaces space
    | lineComment =>
      obtain ⟨y, v, rfl, hsplit, hline, hstop⟩ := hstarts.exists_lineComment
      obtain rfl := List.append_cancel_left hsplit
      exact .lineComment hline hstop hrest
    | blockComment =>
      obtain ⟨y, v, rfl, hsplit, hy⟩ := starts_blockComment_iff.1 hstarts
      exact .blockComment hy hrest

namespace Reader

/-! ## One piece -/

theorem readPiece_of_token {r : Reader} {k : Kind} {x u : Text} (hahead : r.ahead = x ++ u)
    (hl : Lexeme.ofText? r.ahead = some ⟨.token k, x.length⟩) :
    r.readPiece = (.token ⟨k, x, .ofText r.position x⟩,
      ⟨x.reverse ++ r.behind, u, r.position.after x, r.comments⟩) := by
  rw [readPiece_of_ofText? hl, piece, skip, hahead, List.take_left, List.drop_left]
  simp [Piece.comment?]

theorem readPiece_of_trivia {r : Reader} {kind : TriviaKind} {x u : Text} (hahead : r.ahead = x ++ u)
    (hstarts : Lexeme.Starts r.ahead (.trivia kind) x) :
    r.readPiece = (.trivia ⟨kind, x, .ofText r.position x⟩,
      ⟨x.reverse ++ r.behind, u, r.position.after x,
        r.comments ++ (Trivia.comment? ⟨kind, x, .ofText r.position x⟩).toList⟩) := by
  rw [readPiece_of_ofText? (Lexeme.starts_trivia_iff.1 hstarts).1, piece, skip, hahead,
    List.take_left, List.drop_left]
  rfl

theorem starts_of_readPiece {r : Reader} {t : Trivia} (h : r.ahead ≠ [])
    (ht : r.readPiece.1 = .trivia t) : Lexeme.Starts r.ahead (.trivia t.kind) t.text := by
  have hl := ofText?_ahead h
  have happend := readPiece_text_append r
  rw [ht] at hl happend
  exact Lexeme.starts_trivia_iff.2 ⟨hl, _, happend⟩

/-! ## The end of the input -/

/-- The reader behind all of the text ahead, with more comments. -/
def finish (r : Reader) (cs : List Comment) : Reader :=
  { r.skip r.ahead.length with comments := r.comments ++ cs }

theorem finish_eq (r : Reader) (cs : List Comment) : r.finish cs =
    ⟨r.ahead.reverse ++ r.behind, [], r.position.after r.ahead, r.comments ++ cs⟩ := by
  rw [finish, skip, List.take_length, List.drop_length]

theorem finish_of_ahead_eq_nil {r : Reader} (h : r.ahead = []) : r.finish [] = r := by
  obtain ⟨behind, ahead, position, comments⟩ := r
  obtain rfl : ahead = [] := h
  rw [finish_eq, List.append_nil]
  rfl

/-- **Trivia is read to the end**, and its comments are recorded. -/
theorem readToken_of_isTrivia {r : Reader} {cs : List Comment}
    (h : IsTrivia r.position r.ahead cs) : r.readToken = ((r.finish cs).endToken, r.finish cs) := by
  induction r using pieces_induction generalizing cs with
  | atEnd r hr =>
    rw [hr] at h
    cases h
    rw [readToken_of_ahead_eq_nil hr, finish_of_ahead_eq_nil hr]
  | step r hr ih =>
    obtain ⟨kind, x, u, cs', hahead, hstarts, rfl, hrest⟩ := (isTrivia_iff hr).1 h
    have hread := readPiece_of_trivia hahead hstarts
    rw [readToken_of_trivia hr (congrArg Prod.fst hread)]
    rw [hread] at ih ⊢
    rw [ih hrest, finish_eq, finish_eq, hahead, List.reverse_append, Position.after_append,
      List.append_assoc, List.append_assoc]

/-- **A reader finds the end of the input** exactly if nothing but trivia is ahead. -/
theorem isEnd_readToken_iff (r : Reader) :
    r.readToken.1.isEnd = true ↔ ∃ cs, IsTrivia r.position r.ahead cs := by
  constructor
  · intro h
    fun_induction readToken r with
    | case1 r hr => exact ⟨[], by rw [hr]; exact .nil _⟩
    | case2 r hr step t ht =>
      have hkind := (kind_of_readPiece hr ht).1
      rw [← Token.isEnd_eq_false_iff, h] at hkind
      cases hkind
    | case3 r hr step t ht ih =>
      obtain ⟨cs, hcs⟩ := ih h
      have happend := readPiece_text_append r
      rw [ht] at happend
      have hstarts := starts_of_readPiece hr ht
      have hspan := readPiece_span r
      rw [ht] at hspan
      have hposition : step.2.position = r.position.after t.text := by
        rw [readPiece_position, ht, hspan]
        rfl
      rw [hposition] at hcs
      exact ⟨_, (isTrivia_iff hr).2 ⟨t.kind, t.text, _, cs, happend.symm, hstarts, rfl, hcs⟩⟩
  · rintro ⟨cs, h⟩
    rw [readToken_of_isTrivia h]
    rfl

end Reader

end AngleLexer
