import AngleLexer.Proofs.Reader.Pieces

/-!
# Tokens one at a time

`Reader.tokens` reads to the end at once and `Reader.readToken` skips trivia up to the next token.
The two agree (`tokens_of_readToken`): as long as `readToken` finds a token, it is the first of the
remaining tokens, and the others are those of the reader it leaves. When it finds none, the reader
it leaves is the one at the end of the source (`tokens_of_isEnd`).

What a token is depends on the text from its first character on, and on nothing before it. So the
offsets of the tokens (`Text.tokenOffsets`) say of a source which of its ends start with a token
that reading comes to (`lexeme_of_tokenOffsets`).
-/

namespace AngleLexer

theorem Token.isEnd_eq_false_iff {t : Token} : t.isEnd = false ↔ t.kind ≠ .endOfInput := by
  simp [isEnd]

namespace Reader

theorem tokens_of_ahead_eq_nil {r : Reader} (h : r.ahead = []) : r.tokens = ([], r) := by
  rw [tokens, pieces_of_ahead_eq_nil h]
  rfl

theorem tokens_of_token {r : Reader} {t : Token} (h : r.ahead ≠ []) (ht : r.readPiece.1 = .token t) :
    r.tokens = (t :: r.readPiece.2.tokens.1, r.readPiece.2.tokens.2) := by
  rw [tokens, pieces_of_ahead_ne_nil h, ht]
  rfl

theorem tokens_of_trivia {r : Reader} {t : Trivia} (h : r.ahead ≠ [])
    (ht : r.readPiece.1 = .trivia t) : r.tokens = r.readPiece.2.tokens := by
  rw [tokens, pieces_of_ahead_ne_nil h, ht]
  rfl

theorem readToken_of_token {r : Reader} {t : Token} (h : r.ahead ≠ [])
    (ht : r.readPiece.1 = .token t) : r.readToken = (t, r.readPiece.2) := by
  rw [readToken, dif_neg h]
  simp only [ht]

theorem readToken_of_trivia {r : Reader} {t : Trivia} (h : r.ahead ≠ [])
    (ht : r.readPiece.1 = .trivia t) : r.readToken = r.readPiece.2.readToken := by
  rw [readToken, dif_neg h]
  simp only [ht]

/-- A token that is not the end of the input is the first of those that are left. -/
theorem tokens_of_readToken {r : Reader} (h : r.readToken.1.isEnd = false) :
    r.tokens = (r.readToken.1 :: r.readToken.2.tokens.1, r.readToken.2.tokens.2) := by
  fun_induction readToken r with
  | case1 r hr => cases h
  | case2 r hr step t ht => exact tokens_of_token hr ht
  | case3 r hr step t ht ih => rw [tokens_of_trivia hr ht, ih h]

/-- The end of the input is read where no token is left. -/
theorem tokens_of_isEnd {r : Reader} (h : r.readToken.1.isEnd = true) :
    r.tokens = ([], r.readToken.2) ∧ r.readToken.1 = r.readToken.2.endToken ∧
      r.readToken.2.ahead = [] := by
  fun_induction readToken r with
  | case1 r hr => exact ⟨tokens_of_ahead_eq_nil hr, rfl, hr⟩
  | case2 r hr step t ht =>
    have hkind := (kind_of_readPiece hr ht).1
    rw [← Token.isEnd_eq_false_iff, h] at hkind
    cases hkind
  | case3 r hr step t ht ih =>
    rw [tokens_of_trivia hr ht]
    exact ih h

theorem source_readToken (r : Reader) : r.readToken.2.source = r.source := by
  fun_induction readToken r with
  | case1 r hr => rfl
  | case2 r hr step t ht => exact source_readPiece r
  | case3 r hr step t ht ih => exact ih.trans (source_readPiece r)

/-- Only tokens of the grammar are read before the end. -/
theorem kind_of_mem_tokens {r : Reader} {t : Token} (h : t ∈ r.tokens.1) :
    t.kind ≠ .endOfInput ∧ t.kind ≠ .genericLt := by
  obtain ⟨p, hp, ht⟩ := List.mem_filterMap.1 h
  exact kind_of_mem_pieces (Piece.eq_token_of_token? ht ▸ hp)

/-- The first token that is read before the end is that of a reader further on. -/
theorem exists_readPiece_eq_readToken {r : Reader} (h : r.readToken.1.isEnd = false) :
    ∃ (n : Nat) (r' : Reader), r'.ahead = r.ahead.drop n ∧ r'.source = r.source ∧
      r'.ahead ≠ [] ∧ r'.readPiece = (.token r.readToken.1, r.readToken.2) := by
  fun_induction readToken r with
  | case1 r hr => cases h
  | case2 r hr step t ht => exact ⟨0, r, rfl, rfl, hr, by rw [← ht]⟩
  | case3 r hr step t ht ih =>
    obtain ⟨n, r', hahead, hsource, hne, hpiece⟩ := ih h
    refine ⟨step.1.text.length + n, r', ?_, ?_, hne, hpiece⟩
    · rw [hahead]
      exact drop_ahead_readPiece r n
    · rw [hsource, source_readPiece]

/-- Where a lexeme of a kind lies ahead, the next token is the next piece and of that kind. -/
theorem readToken_of_lexeme {r : Reader} {kind : Kind} {width : Nat}
    (h : Lexeme.ofText? r.ahead = some ⟨.token kind, width⟩) :
    r.readPiece = (.token r.readToken.1, r.readToken.2) ∧ r.readToken.1.kind = kind ∧
      r.readToken.2.ahead = r.ahead.drop width := by
  have hpiece := readPiece_of_ofText? h
  rw [readToken_of_token (Lexeme.ne_nil_of_ofText? h) (congrArg Prod.fst hpiece), hpiece]
  exact ⟨rfl, rfl, rfl⟩

/-- Where a lexeme that is a token lies ahead, the input is not at its end. -/
theorem isEnd_readToken_of_lexeme {r : Reader} {kind : Kind} {width : Nat}
    (h : Lexeme.ofText? r.ahead = some ⟨.token kind, width⟩) : r.readToken.1.isEnd = false := by
  rw [Token.isEnd_eq_false_iff, (readToken_of_lexeme h).2.1]
  exact (Category.isGrammatical_token (Lexeme.isGrammatical_of_ofText? h)).1

/-- A piece that is a token comes from a lexeme of its kind. -/
theorem lexeme_of_readPiece {r : Reader} {t : Token} (h : r.ahead ≠ [])
    (ht : r.readPiece.1 = .token t) :
    ∃ width, Lexeme.ofText? r.ahead = some ⟨.token t.kind, width⟩ := by
  rcases hl : Lexeme.ofText? r.ahead with _ | ⟨category, width⟩
  · exact absurd (Lexeme.ofText?_eq_none_iff.1 hl) h
  · rw [readPiece_of_ofText? hl, piece] at ht
    rcases category with kind | kind
    · cases ht
    · cases ht
      exact ⟨width, rfl⟩

/-- The text of a piece that is a token is as much of the text ahead as its lexeme takes. -/
theorem text_of_lexeme {r : Reader} {t : Token} {l : Lexeme} (hl : Lexeme.ofText? r.ahead = some l)
    (ht : r.readPiece.1 = .token t) : t.text = r.ahead.take l.width := by
  have htext := congrArg Piece.text ht
  rw [readPiece_of_ofText? hl, text_piece] at htext
  exact htext.symm

/-- Every token is what some end of the text ahead starts with. -/
theorem lexeme_of_mem_tokens {r : Reader} {t : Token} (h : t ∈ r.tokens.1) :
    ∃ ahead width, ahead <:+ r.ahead ∧ Lexeme.ofText? ahead = some ⟨.token t.kind, width⟩ ∧
      t.text = ahead.take width := by
  induction r using pieces_induction with
  | atEnd r hr =>
    rw [tokens_of_ahead_eq_nil hr] at h
    cases h
  | step r hr ih =>
    have hsuffix : r.readPiece.2.ahead <:+ r.ahead := ⟨_, readPiece_text_append r⟩
    have hrest : t ∈ r.readPiece.2.tokens.1 →
        ∃ ahead width, ahead <:+ r.ahead ∧ Lexeme.ofText? ahead = some ⟨.token t.kind, width⟩ ∧
          t.text = ahead.take width := by
      intro ht
      obtain ⟨ahead, width, hahead, hlexeme, htext⟩ := ih ht
      exact ⟨ahead, width, hahead.trans hsuffix, hlexeme, htext⟩
    rcases hstep : r.readPiece.1 with u | u
    · rw [tokens_of_trivia hr hstep] at h
      exact hrest h
    · rw [tokens_of_token hr hstep] at h
      rcases List.mem_cons.1 h with rfl | ht
      · obtain ⟨width, hlexeme⟩ := lexeme_of_readPiece hr hstep
        exact ⟨r.ahead, width, List.suffix_refl _, hlexeme, text_of_lexeme hlexeme hstep⟩
      · exact hrest ht

end Reader

/-! ## Offsets -/

/-- Where tokens begin among pieces of which the first one begins at `n`, in characters. -/
def Piece.tokenOffsets (n : Nat) : List Piece → List Nat
  | [] => []
  | .trivia t :: ps => tokenOffsets (n + t.text.length) ps
  | .token t :: ps => n :: tokenOffsets (n + t.text.length) ps

/-- Where the tokens of a source begin, in characters. -/
def Text.tokenOffsets (source : Text) : List Nat :=
  Piece.tokenOffsets 0 (Reader.ofText source).pieces.1

theorem Piece.le_of_mem_tokenOffsets {n o : Nat} {ps : List Piece} (h : o ∈ tokenOffsets n ps) :
    n ≤ o := by
  induction ps generalizing n with
  | nil => cases h
  | cons p ps ih =>
    rcases p with t | t
    · exact Nat.le_of_add_right_le (ih h)
    · rcases List.mem_cons.1 h with rfl | h
      · exact Nat.le_refl _
      · exact Nat.le_of_add_right_le (ih h)

theorem Piece.tokenOffsets_pairwise {ps : List Piece} (h : ∀ p ∈ ps, p.text ≠ []) (n : Nat) :
    (tokenOffsets n ps).Pairwise (· < ·) := by
  induction ps generalizing n with
  | nil => exact List.Pairwise.nil
  | cons p ps ih =>
    obtain ⟨hp, hps⟩ := List.forall_mem_cons.1 h
    rcases p with t | t
    · exact ih hps _
    · refine List.Pairwise.cons ?_ (ih hps _)
      intro o ho
      have hpos : 0 < t.text.length := List.length_pos_iff.2 hp
      have hle := le_of_mem_tokenOffsets ho
      omega

/-- Later tokens begin further on. -/
theorem Text.tokenOffsets_pairwise (source : Text) : source.tokenOffsets.Pairwise (· < ·) :=
  Piece.tokenOffsets_pairwise
    (fun _ hp => (Reader.pieces_tile (Reader.ofText source)).text_ne_nil_of_mem hp) 0

/-- No two tokens begin at one offset. -/
theorem Text.tokenOffsets_inj {source : Text} {i j o : Nat} (hi : source.tokenOffsets[i]? = some o)
    (hj : source.tokenOffsets[j]? = some o) : i = j :=
  (List.getElem?_inj (List.getElem?_eq_some_iff.1 hi).1
    (source.tokenOffsets_pairwise.imp fun h => Nat.ne_of_lt h)).1 (hi.trans hj.symm)

/-- The text from where a token begins starts with a lexeme of its kind. -/
theorem Reader.lexeme_of_tokenOffsets {r : Reader} {n k o : Nat}
    (h : (Piece.tokenOffsets n r.pieces.1)[k]? = some o) :
    ∃ (m : Nat) (kind : Kind) (width : Nat), o = n + m ∧
      Lexeme.ofText? (r.ahead.drop m) = some ⟨.token kind, width⟩ ∧
      (r.tokens.1[k]?).map Token.kind = some kind := by
  induction r using pieces_induction generalizing n k with
  | atEnd r hr => simp [pieces_of_ahead_eq_nil hr, Piece.tokenOffsets] at h
  | step r hr ih =>
    -- behind the piece the offsets count from its end
    have hdrop := drop_ahead_readPiece r
    rw [pieces_of_ahead_ne_nil hr] at h
    rcases hstep : r.readPiece.1 with t | t
    · rw [hstep] at h hdrop
      obtain ⟨m, kind, width, ho, hlexeme, hkind⟩ := ih h
      refine ⟨t.text.length + m, kind, width, by omega, hdrop m ▸ hlexeme, ?_⟩
      rw [tokens_of_trivia hr hstep]
      exact hkind
    · rw [hstep] at h hdrop
      rw [tokens_of_token hr hstep]
      rcases k with _ | k
      · obtain ⟨width, hlexeme⟩ := lexeme_of_readPiece hr hstep
        exact ⟨0, t.kind, width, (Option.some.inj h).symm, hlexeme, rfl⟩
      · obtain ⟨m, kind, width, ho, hlexeme, hkind⟩ := ih h
        exact ⟨t.text.length + m, kind, width, by omega, hdrop m ▸ hlexeme, hkind⟩

end AngleLexer
