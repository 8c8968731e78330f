import AngleLexer.Proofs.Lexeme
import AngleLexer.Proofs.Position
import AngleLexer.Reader.Session

/-!
# The pieces of a source

Reading cuts a source into pieces and loses nothing. The steps:

* one call moves the text of its piece from the one side of the reader to the other
  (`readPiece_text_append`), and the span of the piece says so (`readPiece_span`);
* hence the pieces up to the end tile the text ahead: they join up to it, none is empty, and each
  one begins where the one before it ends (`pieces_tile`);
* a tiling of a source has no more pieces than the source has characters, and its pieces begin at
  later and later positions (`Tiles.length_le`, `Tiles.pairwise_first`).

A call at the end of the source is no special case of the step lemmas: its piece is empty.
-/

namespace AngleLexer

namespace Reader

/-! ## One call -/

theorem text_piece (r : Reader) (l : Lexeme) : (r.piece l).text = r.ahead.take l.width := by
  rcases l with ⟨_ | _, width⟩ <;> rfl

theorem span_piece (r : Reader) (l : Lexeme) :
    (r.piece l).span = .ofText r.position (r.ahead.take l.width) := by
  rcases l with ⟨_ | _, width⟩ <;> rfl

theorem readPiece_of_ofText? {r : Reader} {l : Lexeme} (h : Lexeme.ofText? r.ahead = some l) :
    r.readPiece =
      (r.piece l, { r.skip l.width with comments := r.comments ++ (r.piece l).comment?.toList }) := by
  unfold readPiece
  rw [h]

theorem readPiece_of_ahead_eq_nil {r : Reader} (h : r.ahead = []) :
    r.readPiece = (.token r.endToken, r) := by
  unfold readPiece
  rw [Lexeme.ofText?_eq_none_iff.2 h]

/-- What is ahead is the source without the text that is behind. -/
theorem drop_source (r : Reader) : r.source.drop r.behind.length = r.ahead := by
  rw [source, consumed, List.drop_left' List.length_reverse]

/-- A call takes the text of its piece off the text ahead. -/
theorem readPiece_text_append (r : Reader) : r.readPiece.1.text ++ r.readPiece.2.ahead = r.ahead := by
  rcases hl : Lexeme.ofText? r.ahead with _ | l
  · have hnil := Lexeme.ofText?_eq_none_iff.1 hl
    rw [readPiece_of_ahead_eq_nil hnil]
    rfl
  · rw [readPiece_of_ofText? hl, text_piece]
    exact List.take_append_drop l.width r.ahead

theorem drop_ahead_readPiece (r : Reader) (m : Nat) :
    r.readPiece.2.ahead.drop m = r.ahead.drop (r.readPiece.1.text.length + m) := by
  rw [← readPiece_text_append r, ← List.drop_drop, List.drop_left]

/-- A call adds the text of its piece to what was read. -/
theorem consumed_readPiece (r : Reader) :
    r.readPiece.2.consumed = r.consumed ++ r.readPiece.1.text := by
  rcases hl : Lexeme.ofText? r.ahead with _ | l
  · have hnil := Lexeme.ofText?_eq_none_iff.1 hl
    rw [readPiece_of_ahead_eq_nil hnil]
    exact (List.append_nil _).symm
  · rw [readPiece_of_ofText? hl, text_piece]
    exact consumed_skip l.width r

/-- A piece spans its text from where the reader stands. -/
theorem readPiece_span (r : Reader) : r.readPiece.1.span = .ofText r.position r.readPiece.1.text := by
  rcases hl : Lexeme.ofText? r.ahead with _ | l
  · have hnil := Lexeme.ofText?_eq_none_iff.1 hl
    rw [readPiece_of_ahead_eq_nil hnil]
    rfl
  · rw [readPiece_of_ofText? hl, text_piece, span_piece]

/-- After a call the reader stands where the piece ends. -/
theorem readPiece_position (r : Reader) : r.readPiece.2.position = r.readPiece.1.span.last := by
  rw [readPiece_span]
  rcases hl : Lexeme.ofText? r.ahead with _ | l
  · have hnil := Lexeme.ofText?_eq_none_iff.1 hl
    rw [readPiece_of_ahead_eq_nil hnil]
    rfl
  · rw [readPiece_of_ofText? hl, text_piece]
    rfl

/-- Before the end a piece has text. -/
theorem readPiece_text_ne_nil {r : Reader} (h : r.ahead ≠ []) : r.readPiece.1.text ≠ [] := by
  intro hnil
  have happend := readPiece_text_append r
  rw [hnil, List.nil_append] at happend
  have hlt := length_ahead_readPiece h
  rw [happend] at hlt
  exact Nat.lt_irrefl _ hlt

/-- A token that is read before the end is one of the grammar. -/
theorem kind_of_readPiece {r : Reader} {t : Token} (h : r.ahead ≠ [])
    (ht : r.readPiece.1 = .token t) : t.kind ≠ .endOfInput ∧ t.kind ≠ .genericLt := by
  rcases hl : Lexeme.ofText? r.ahead with _ | ⟨category, width⟩
  · exact absurd (Lexeme.ofText?_eq_none_iff.1 hl) h
  · have hgrammar := Lexeme.isGrammatical_of_ofText? hl
    rw [readPiece_of_ofText? hl, piece] at ht
    rcases category with kind | kind
    · cases ht
    · cases ht
      exact Category.isGrammatical_token hgrammar

end Reader

theorem Piece.eq_token_of_token? {p : Piece} {t : Token} (h : p.token? = some t) :
    p = .token t := by
  rcases p with _ | u
  · cases h
  · rw [Option.some.inj h]

theorem Piece.span_of_token? {p : Piece} {t : Token} (h : p.token? = some t) :
    p.span = t.span := by
  rw [eq_token_of_token? h]
  rfl

/-! ## Tilings -/

/-- The pieces of a list lie side by side, the first one at a given position, and none of them is
empty. -/
inductive Tiles : Position → List Piece → Prop
  /-- no piece at all -/
  | nil (p : Position) : Tiles p []
  /-- a piece in front of others -/
  | cons {p : Position} {piece : Piece} {rest : List Piece} (text_ne_nil : piece.text ≠ [])
    (span : piece.span = .ofText p piece.text) (tiles : Tiles piece.span.last rest) :
    Tiles p (piece :: rest)

namespace Tiles

variable {p : Position} {pieces : List Piece}

theorem text_ne_nil_of_mem (h : Tiles p pieces) {piece : Piece} (hm : piece ∈ pieces) :
    piece.text ≠ [] := by
  induction h with
  | nil p => cases hm
  | cons hne _ _ ih =>
    rcases List.mem_cons.1 hm with rfl | hm
    · exact hne
    · exact ih hm

/-- There is at least one character for every piece. -/
theorem length_le (h : Tiles p pieces) :
    pieces.length ≤ (pieces.map Piece.text).flatten.length := by
  induction h with
  | nil p => exact Nat.le_refl _
  | cons hne _ _ ih =>
    have := List.length_pos_iff.2 hne
    simp only [List.map_cons, List.flatten_cons, List.length_append, List.length_cons]
    omega

/-- The span of a piece follows from the texts of the pieces before it. -/
theorem span_getElem? (h : Tiles p pieces) {i : Nat} {piece : Piece} (hi : pieces[i]? = some piece) :
    piece.span = .ofText (p.after ((pieces.take i).map Piece.text).flatten) piece.text := by
  induction h generalizing i with
  | nil p => simp at hi
  | cons _ hspan _ ih =>
    rcases i with _ | i
    · obtain rfl := Option.some.inj hi
      exact hspan
    · rw [ih hi, hspan]
      simp [Span.ofText, Position.after_append]

/-- Each piece begins where the one before it ends. -/
theorem first_getElem?_succ (h : Tiles p pieces) {i : Nat} {a b : Piece}
    (ha : pieces[i]? = some a) (hb : pieces[i + 1]? = some b) : b.span.first = a.span.last := by
  obtain ⟨hi, rfl⟩ := List.getElem?_eq_some_iff.1 ha
  rw [h.span_getElem? hb, h.span_getElem? ha, List.take_succ_eq_append_getElem hi, List.map_append,
    List.flatten_append]
  simp [Span.ofText, Position.after_append]

/-- Every piece begins after whatever lies before the tiling. -/
theorem lt_first (h : Tiles p pieces) {q : Position} (hq : q < p) {piece : Piece}
    (hm : piece ∈ pieces) : q < piece.span.first := by
  induction h with
  | nil p => cases hm
  | @cons p head rest hne hspan _ ih =>
    rw [hspan] at ih
    rcases List.mem_cons.1 hm with rfl | hm
    · rw [hspan]
      exact hq
    · exact ih (Position.lt_trans hq (Position.lt_after p hne)) hm

/-- The pieces begin at later and later positions. -/
theorem pairwise_first (h : Tiles p pieces) :
    (pieces.map fun piece => piece.span.first).Pairwise (· < ·) := by
  induction h with
  | nil p => exact List.Pairwise.nil
  | @cons p head rest hne hspan htiles ih =>
    refine List.Pairwise.cons ?_ ih
    intro q hq
    obtain ⟨piece, hm, rfl⟩ := List.mem_map.1 hq
    have hlt : head.span.first < head.span.last := by
      rw [hspan]
      exact Position.lt_after p hne
    exact htiles.lt_first hlt hm

end Tiles

/-! ## All calls -/

namespace Reader

/-- What holds at the end of a source, and before a piece whenever it holds behind the piece, holds
of every reader. -/
theorem pieces_induction {motive : Reader → Prop} (r : Reader)
    (atEnd : ∀ r, r.ahead = [] → motive r)
    (step : ∀ r, r.ahead ≠ [] → motive r.readPiece.2 → motive r) : motive r := by
  fun_induction pieces r with
  | case1 r h => exact atEnd r h
  | case2 r h _ _ ih => exact step r h ih

/-- The pieces up to the end join up to the text ahead. -/
theorem flatten_pieces (r : Reader) : (r.pieces.1.map Piece.text).flatten = r.ahead := by
  fun_induction pieces r with
  | case1 r h => exact h.symm
  | case2 r h step onward ih =>
    rw [List.map_cons, List.flatten_cons, ih]
    exact readPiece_text_append r

/-- The pieces up to the end tile the text ahead. -/
theorem pieces_tile (r : Reader) : Tiles r.position r.pieces.1 := by
  fun_induction pieces r with
  | case1 r h => exact .nil r.position
  | case2 r h step onward ih =>
    rw [readPiece_position] at ih
    exact .cons (readPiece_text_ne_nil h) (readPiece_span r) ih

/-- The tokens among the pieces are tokens of the grammar. -/
theorem kind_of_mem_pieces {r : Reader} {t : Token} (h : .token t ∈ r.pieces.1) :
    t.kind ≠ .endOfInput ∧ t.kind ≠ .genericLt := by
  fun_induction pieces r with
  | case1 r _ => cases h
  | case2 r hr step onward ih =>
    rcases List.mem_cons.1 h with ht | ht
    · exact kind_of_readPiece hr ht.symm
    · exact ih ht

/-- The reader at the end of the pieces stands behind the text that was ahead. -/
theorem position_pieces (r : Reader) : r.pieces.2.position = r.position.after r.ahead := by
  fun_induction pieces r with
  | case1 r h =>
    rw [h]
    rfl
  | case2 r h step onward ih =>
    rw [ih, readPiece_position, readPiece_span, ← readPiece_text_append r]
    exact (Position.after_append _ _ _).symm

/-- Calls return the pieces one after the other, and from then on the end of the input. -/
theorem run_replicate_piece (r : Reader) (n : Nat) :
    (r.run (List.replicate n .piece)).1 =
      ((r.pieces.1 ++ List.replicate n (Piece.token r.pieces.2.endToken)).take n).map .piece := by
  induction n generalizing r with
  | zero => rfl
  | succ n ih =>
    have hrun : (r.run (List.replicate (n + 1) .piece)).1 =
        .piece r.readPiece.1 :: (r.readPiece.2.run (List.replicate n .piece)).1 := rfl
    rw [hrun, ih]
    by_cases h : r.ahead = []
    · rw [readPiece_of_ahead_eq_nil h, pieces_of_ahead_eq_nil h]
      simp [List.replicate_succ]
    · rw [pieces_of_ahead_ne_nil h, List.replicate_succ']
      simp [← List.append_assoc, List.take_append_of_le_length]

/-- **Reading a source piece by piece** comes to its end after at most one call for each character
and one more, and loses nothing on the way. The pieces before the end have text and join up to the
source; each begins where the one before it ends, the first one at the start; their ends are where
the text up to there puts them; so tokens begin at later and later positions. -/
theorem readPiece_cuts_source (source : Text) :
    ∃ ps : List Piece,
      (∀ n, ((ofText source).run (List.replicate n .piece)).1 =
        ((ps ++ List.replicate n (Piece.token ⟨.endOfInput, [], .emptyAt (.endOf source)⟩)).take
          n).map .piece) ∧
      ps.length ≤ source.length ∧
      (∀ p ∈ ps, p.text ≠ [] ∧ ∀ t, p = .token t → t.kind ≠ .endOfInput) ∧
      (ps.map Piece.text).flatten = source ∧
      (∀ p : Piece, ps[0]? = some p → p.span.first = ⟨1, 0⟩) ∧
      (∀ (i : Nat) (a b : Piece), ps[i]? = some a → ps[i + 1]? = some b → b.span.first = a.span.last) ∧
      (∀ (i : Nat) (p : Piece), ps[i]? = some p →
        p.span.first = Position.endOf ((ps.take i).map Piece.text).flatten ∧
        p.span.last = Position.endOf ((ps.take (i + 1)).map Piece.text).flatten) ∧
      ((ps.filterMap Piece.token?).map fun t => t.span.first).Pairwise (· < ·) := by
  have htile := pieces_tile (ofText source)
  have hflat : _ = source := flatten_pieces (ofText source)
  have hend : (ofText source).pieces.2.endToken =
      ⟨.endOfInput, [], .emptyAt (.endOf source)⟩ := by
    rw [endToken, position_pieces, ← Position.start_after]
    rfl
  refine ⟨(ofText source).pieces.1, ?_, ?_, ?_, hflat, ?_, ?_, ?_, ?_⟩
  · intro n
    rw [run_replicate_piece, hend]
  · have hlen := htile.length_le
    rwa [hflat] at hlen
  · intro p hp
    refine ⟨htile.text_ne_nil_of_mem hp, ?_⟩
    rintro t rfl
    exact (kind_of_mem_pieces hp).1
  · intro p hp
    rw [htile.span_getElem? hp]
    rfl
  · intro i a b ha hb
    exact htile.first_getElem?_succ ha hb
  · -- either end of a piece is the end of what was read up to there
    intro i p hp
    obtain ⟨hi, rfl⟩ := List.getElem?_eq_some_iff.1 hp
    rw [htile.span_getElem? hp, List.take_succ_eq_append_getElem hi, List.map_append,
      List.flatten_append, ← Position.start_after, ← Position.start_after, Position.after_append]
    simp [Span.ofText, ofText]
  · have hstarts := htile.pairwise_first
    rw [List.pairwise_map] at hstarts
    rw [List.pairwise_map]
    refine hstarts.filterMap Piece.token? ?_
    intro a b hlt t ht u hu
    rwa [Piece.span_of_token? ht, Piece.span_of_token? hu] at hlt

end Reader

end AngleLexer
