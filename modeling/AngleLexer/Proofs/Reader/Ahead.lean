import AngleLexer.Proofs.Lexeme.Rules

/-!
# Only the text ahead matters

A reader carries a position, the text behind it and comments, but none of them has a part in what it
finds. Two readers with the same text ahead find pieces of the same categories and texts
(`Reader.map_content_pieces`), and each piece is the lexeme that the source starts with from there on
(`Reader.ofText?_of_pieces`).
-/

namespace AngleLexer

/-- What a piece is wherever it stands: its category and its text. -/
def Piece.content (p : Piece) : Category × Text := (p.category, p.text)

namespace Reader

/-- One call finds the same in front of the same text, and leaves the same text. -/
theorem content_readPiece {r r' : Reader} (h : r'.ahead = r.ahead) :
    r'.readPiece.1.content = r.readPiece.1.content ∧ r'.readPiece.2.ahead = r.readPiece.2.ahead := by
  rcases hl : Lexeme.ofText? r.ahead with _ | l
  · have hnil := Lexeme.ofText?_eq_none_iff.1 hl
    rw [readPiece_of_ahead_eq_nil hnil, readPiece_of_ahead_eq_nil (h.trans hnil)]
    exact ⟨rfl, h⟩
  · rw [readPiece_of_ofText? hl, readPiece_of_ofText? ((congrArg _ h).trans hl)]
    refine ⟨?_, congrArg (List.drop l.width) h⟩
    rcases l with ⟨_ | _, width⟩
    all_goals exact congrArg (Prod.mk _) (congrArg (List.take width) h)

/-- **Readers with the same text ahead** find the same up to the end. -/
theorem map_content_pieces {r r' : Reader} (h : r'.ahead = r.ahead) :
    r'.pieces.1.map Piece.content = r.pieces.1.map Piece.content := by
  induction r using pieces_induction generalizing r' with
  | atEnd r hnil => rw [pieces_of_ahead_eq_nil hnil, pieces_of_ahead_eq_nil (h.trans hnil)]
  | step r hne ih =>
    obtain ⟨hcontent, hahead⟩ := content_readPiece h
    rw [pieces_of_ahead_ne_nil hne, pieces_of_ahead_ne_nil (h ▸ hne), List.map_cons, List.map_cons,
      hcontent, ih hahead]

/-- **Each piece is what the text starts with** from its own beginning on. -/
theorem ofText?_of_pieces {r : Reader} {before after : List Piece} {p : Piece}
    (h : r.pieces.1 = before ++ p :: after) :
    Lexeme.ofText? (p.text ++ (after.map Piece.text).flatten) = some ⟨p.category, p.text.length⟩ := by
  induction r using pieces_induction generalizing before with
  | atEnd r hnil =>
    rw [pieces_of_ahead_eq_nil hnil] at h
    cases before <;> cases h
  | step r hne ih =>
    rw [pieces_of_ahead_ne_nil hne] at h
    rcases before with _ | ⟨q, before⟩
    · obtain ⟨rfl, rfl⟩ := List.cons.inj h
      rw [flatten_pieces, readPiece_text_append]
      exact ofText?_ahead hne
    · exact ih (List.cons.inj h).2

end Reader

end AngleLexer
