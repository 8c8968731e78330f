import AngleLexer.Proofs.Reader.Prefixes
import AngleLexer.Proofs.Scanner.Labels

/-!
# Tokens without their trivia

The texts of the tokens of a source, joined by line feeds, make a source with the same tokens
(`Reader.tokens_of_ahead_eq_joined`): a line feed ends every token that anything ends, and a token
that goes on to the end of the input is the last one. Between two tokens there is nothing but that
line feed, since no token begins with white space. So a scanner finds the same kinds and texts in
the joined source and meets no comment there (`Scanner.tokens_joined`); which comparisons open type
arguments is decided by the kinds alone.
-/

namespace AngleLexer

/-- What a token means wherever it stands: its kind and its text. -/
def Token.content (t : Token) : Kind × Text := (t.kind, t.text)

/-- The texts of some tokens, with a line feed between neighbours. -/
def Token.joined (ts : List Token) : Text :=
  List.intercalate ['\n'] (ts.map Token.text)

theorem Token.joined_cons_cons (t u : Token) (ts : List Token) :
    joined (t :: u :: ts) = t.text ++ '\n' :: joined (u :: ts) := by
  simp [joined]

/-- The joined text begins with the text of the first token. -/
theorem Token.exists_joined_cons (t : Token) (ts : List Token) : ∃ s, joined (t :: ts) = t.text ++ s := by
  rcases ts with _ | ⟨u, ts⟩
  · exact ⟨[], by simp [joined]⟩
  · exact ⟨_, joined_cons_cons t u ts⟩

namespace Reader

/-! ## One token -/

/-- No token begins with white space. -/
theorem exists_cons_of_mem_tokens {r : Reader} {t : Token} (h : t ∈ r.tokens.1) :
    ∃ c rest, t.text = c :: rest ∧ isSpace c = false := by
  obtain ⟨ahead, width, -, hlexeme, htext⟩ := lexeme_of_mem_tokens h
  rcases ahead with _ | ⟨c, rest⟩
  · cases hlexeme
  obtain ⟨n, rfl⟩ := Nat.exists_eq_succ_of_ne_zero (Nat.ne_of_gt (Lexeme.width_pos hlexeme))
  refine ⟨c, rest.take n, htext, ?_⟩
  by_contra hc
  have hfirst : Lexeme.first c rest = _ := Option.some.inj hlexeme
  rw [Lexeme.first, if_pos (Bool.not_eq_false _ ▸ hc)] at hfirst
  cases hfirst

/-- A token is found again in front of any text that stops like what stood behind it. -/
theorem lexeme_of_token {r : Reader} {t : Token} (h : r.ahead ≠ []) (ht : r.readPiece.1 = .token t)
    {s : Text} (hs : StopsLike r.readPiece.2.ahead s) :
    Lexeme.ofText? (t.text ++ s) = some ⟨.token t.kind, t.text.length⟩ := by
  obtain ⟨width, hlexeme⟩ := lexeme_of_readPiece h ht
  have happend := readPiece_text_append r
  rw [ht] at happend
  have hlength : t.text.length = width := by
    rw [text_of_lexeme hlexeme ht]
    exact List.length_take_of_le (Lexeme.width_le hlexeme)
  refine Lexeme.ofText?_replace hs (fun hspace => nomatch hspace) ?_ rfl
  rw [hlength, ← hlexeme]
  exact congrArg _ happend

/-- Where a token lies ahead, it is the first one, and behind it reading goes on. -/
theorem exists_tokens_of_lexeme {r : Reader} {kind : Kind} {text s : Text}
    (hahead : r.ahead = text ++ s)
    (hlexeme : Lexeme.ofText? (text ++ s) = some ⟨.token kind, text.length⟩) :
    ∃ r' : Reader, r'.ahead = s ∧ r'.comments = r.comments ∧
      r.tokens.1.map Token.content = (kind, text) :: r'.tokens.1.map Token.content ∧
      r.tokens.2 = r'.tokens.2 := by
  rw [← hahead] at hlexeme
  have hread := readPiece_of_ofText? hlexeme
  have htokens := tokens_of_token (Lexeme.ne_nil_of_ofText? hlexeme) (congrArg Prod.fst hread)
  refine ⟨r.readPiece.2, ?_, ?_, ?_, ?_⟩
  · rw [hread]
    change r.ahead.drop text.length = s
    rw [hahead, List.drop_left]
  · rw [hread]
    exact List.append_nil _
  · rw [htokens, List.map_cons]
    refine congrArg (· :: _) (congrArg (kind, ·) ?_)
    change r.ahead.take text.length = text
    rw [hahead, List.take_left]
  · rw [htokens]

/-- A line feed in front of a token is white space, and no more than that. -/
theorem exists_tokens_of_lineFeed {r : Reader} {c : Char} {rest : Text}
    (hahead : r.ahead = '\n' :: c :: rest) (hc : isSpace c = false) :
    ∃ r' : Reader, r'.ahead = c :: rest ∧ r'.comments = r.comments ∧ r.tokens = r'.tokens := by
  have hlexeme : Lexeme.ofText? r.ahead = some ⟨.trivia .whitespace, 1⟩ := by
    rw [hahead]
    refine congrArg some ?_
    rw [Lexeme.first, if_pos (by decide), List.takeWhile_cons, hc]
    rfl
  have hread := readPiece_of_ofText? hlexeme
  refine ⟨r.readPiece.2, ?_, ?_, ?_⟩
  · rw [hread]
    change r.ahead.drop 1 = _
    rw [hahead]
    rfl
  · rw [hread]
    exact List.append_nil _
  · exact tokens_of_trivia (Lexeme.ne_nil_of_ofText? hlexeme) (congrArg Prod.fst hread)

/-! ## All tokens -/

/-- **A reader of joined tokens** finds these tokens again and meets no comment. -/
theorem tokens_of_ahead_eq_joined {r r' : Reader} (h : r'.ahead = Token.joined r.tokens.1) :
    r'.tokens.1.map Token.content = r.tokens.1.map Token.content ∧
      r'.tokens.2.comments = r'.comments := by
  induction r using pieces_induction generalizing r' with
  | atEnd r hr =>
    rw [tokens_of_ahead_eq_nil hr] at h ⊢
    rw [tokens_of_ahead_eq_nil h]
    exact ⟨rfl, rfl⟩
  | step r hr ih =>
    rcases hstep : r.readPiece.1 with t | t
    · rw [tokens_of_trivia hr hstep] at h ⊢
      exact ih h
    rw [tokens_of_token hr hstep] at h ⊢
    rcases hrest : r.readPiece.2.tokens.1 with _ | ⟨u, us⟩
    · -- the last token ends with the input
      rw [hrest] at h ih
      have hlexeme := lexeme_of_token hr hstep (.of_isPrefix List.nil_prefix)
      have hahead : r'.ahead = t.text ++ [] := by
        rw [h, List.append_nil]
        exact List.intercalate_singleton ..
      obtain ⟨r₁, hr₁, hcomments, htokens, hend⟩ := exists_tokens_of_lexeme hahead hlexeme
      rw [htokens, hend, ← hcomments, tokens_of_ahead_eq_nil hr₁]
      exact ⟨rfl, rfl⟩
    · -- a line feed stands between this token and the next one
      rw [hrest, Token.joined_cons_cons] at h
      rw [hrest] at ih
      have hne : r.readPiece.2.ahead ≠ [] := by
        intro hnil
        rw [tokens_of_ahead_eq_nil hnil] at hrest
        cases hrest
      have hlexeme := lexeme_of_token hr hstep (.lineFeed hne (Token.joined (u :: us)))
      obtain ⟨r₁, hr₁, hcomments₁, htokens, hend⟩ := exists_tokens_of_lexeme h hlexeme
      obtain ⟨c, rest, htext, hc⟩ := exists_cons_of_mem_tokens (hrest ▸ List.mem_cons_self)
      obtain ⟨s, hs⟩ := Token.exists_joined_cons u us
      have hahead : r₁.ahead = '\n' :: c :: (rest ++ s) := by
        rw [hr₁, hs, htext, List.cons_append]
      obtain ⟨r₂, hr₂, hcomments₂, hskip⟩ := exists_tokens_of_lineFeed hahead hc
      have hjoined : r₂.ahead = Token.joined (u :: us) := by
        rw [hr₂, hs, htext, List.cons_append]
      obtain ⟨hcontents, hcomments⟩ := ih hjoined
      rw [htokens, hend, hskip, hcontents, hcomments, hcomments₂, hcomments₁]
      exact ⟨rfl, rfl⟩

end Reader

/-! ## Labels -/

namespace Scanner

/-- The kinds and texts that a scanner hands out are those of the tokens, but for the openers, and
which of them are openers is decided by the kinds. -/
theorem map_content_labelled (source : Text) :
    (labelled source).map Token.content = (source.tokens.map Token.content).mapIdx fun k content =>
      if k ∈ GenericCall.openers ((source.tokens.map Token.content).map Prod.fst) then
        (.genericLt, content.2)
      else content := by
  have hkinds : (source.tokens.map Token.content).map Prod.fst = source.kinds := by
    rw [List.map_map]
    rfl
  refine List.ext_getElem? fun k => ?_
  rw [hkinds, List.getElem?_map, getElem?_labelled, List.getElem?_mapIdx, List.getElem?_map,
    Option.map_map, Option.map_map]
  refine congrArg (Option.map · _) (funext fun t => ?_)
  dsimp only [Function.comp_apply]
  split <;> rfl

/-- Scanners that are in step with sources of the same kinds, labels included, go on to answer
requests for a kind alike. -/
theorem Follows.run_kind_eq {a b : Text} {n : Nat} {s s' : Scanner} (h : Follows a n s)
    (h' : Follows b n s') (hkinds : (labelled a).map Token.kind = (labelled b).map Token.kind)
    (m : Nat) : (s.run (List.replicate m .kind)).1 = (s'.run (List.replicate m .kind)).1 := by
  induction m generalizing n s s' with
  | zero => rfl
  | succ m ih =>
    have hkind : (labelled a)[n]?.map Token.kind = (labelled b)[n]?.map Token.kind := by
      rw [← List.getElem?_map, hkinds, List.getElem?_map]
    rw [List.replicate_succ, Scanner.run, Scanner.run, serve, serve, h.readKind, h'.readKind, hkind]
    exact congrArg (_ :: ·) (ih h.advance h'.advance)

/-- **Trivia carries no meaning**: of the texts of its tokens alone, with a line feed between
neighbours, a scanner makes the same kinds and texts as of the whole source, labels included. So it
is whether the tokens are collected or their kinds asked for one by one, and no comment is met. -/
theorem tokens_joined (source : Text) :
    (ofText (Token.joined source.tokens)).tokens.1.map Token.content =
        (ofText source).tokens.1.map Token.content ∧
      (∀ n, ((ofText (Token.joined source.tokens)).run (List.replicate n .kind)).1 =
        ((ofText source).run (List.replicate n .kind)).1) ∧
      (ofText (Token.joined source.tokens)).tokens.2.comments = [] := by
  have hjoined : (Reader.ofText (Token.joined source.tokens)).ahead =
      Token.joined (Reader.ofText source).tokens.1 := rfl
  obtain ⟨hcontents, hcomments⟩ : (Token.joined source.tokens).tokens.map Token.content =
      source.tokens.map Token.content ∧ _ := Reader.tokens_of_ahead_eq_joined hjoined
  have hlabelled : (labelled (Token.joined source.tokens)).map Token.content =
      (labelled source).map Token.content := by
    rw [map_content_labelled, map_content_labelled, hcontents]
  have hstart := Follows.start (Token.joined source.tokens)
  refine ⟨?_, ?_, ?_⟩
  · rw [(Follows.start source).tokens.1, hstart.tokens.1]
    exact hlabelled
  · refine hstart.run_kind_eq (Follows.start source) ?_
    have hkinds := congrArg (List.map Prod.fst) hlabelled
    rwa [List.map_map, List.map_map] at hkinds
  · obtain ⟨m, hm, hlast⟩ := hstart.tokens.2
    rw [comments, hlast.final hm, hcomments]
    rfl

end Scanner

end AngleLexer
