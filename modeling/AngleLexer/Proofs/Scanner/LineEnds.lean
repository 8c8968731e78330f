import AngleLexer.Proofs.Reader.Trivia
import AngleLexer.Proofs.Scanner.Labels

/-!
# Line ends do not matter

Two scanners read the same source, the second one with a return in front of every line feed. They
stay at the same place (`SamePlace`), but for one drift: behind a comment that ends with its line the
second one has read the return already, and the first one has nothing to read for it. The line feed
that both have ahead then brings them together again. In this way the two readers find the same tokens
at the same positions, and comments that begin at the same positions (`Reader.InStep.readToken`), as
long as no token is invalid. So the scanners answer all requests for tokens alike
(`Scanner.tokens_withReturns`).

Invalid tokens are left out because some go on to the end of the input and take its line ends along.
-/

namespace AngleLexer

/-- The text `t'` ahead at `p'` is the text `t` ahead at `p`, with returns. -/
inductive SamePlace (t : Text) (p : Position) (t' : Text) (p' : Position) : Prop
  /-- what is ahead differs in the returns only -/
  | aligned (ahead : t' = t.withReturns) (position : p' = p)
  /-- the line has ended, and the return that ends it is behind -/
  | behindReturn {rest : Text} (ahead : t = '\n' :: rest) (ahead' : t' = '\n' :: rest.withReturns)
    (line : p'.line = p.line)

theorem Trivia.map_position_comment? (t : Trivia) :
    t.comment?.map Comment.position = if t.kind = .whitespace then none else some t.span.first := by
  rcases t with ⟨_ | _ | _, _, _⟩ <;> rfl

namespace Reader

/-! ## Two readers -/

/-- Two readers go through a source without invalid tokens, the second one with returns in it. -/
structure InStep (r r' : Reader) : Prop where
  /-- they are at the same place -/
  place : SamePlace r.ahead r.position r'.ahead r'.position
  /-- the comments they have met begin at the same positions -/
  comments : r'.comments.map Comment.position = r.comments.map Comment.position
  /-- no token ahead is invalid -/
  valid : ∀ t ∈ r.tokens.1, t.kind ≠ .invalid

namespace InStep

variable {r r' : Reader}

theorem start {source : Text} (h : ∀ t ∈ source.tokens, t.kind ≠ .invalid) :
    InStep (ofText source) (ofText source.withReturns) :=
  ⟨.aligned rfl rfl, rfl, h⟩

/-- Both read the same token. -/
theorem token (h : InStep r r') (hne : r.ahead ≠ []) {t : Token} (ht : r.readPiece.1 = .token t) :
    r'.readPiece.1 = .token t ∧ InStep r.readPiece.2 r'.readPiece.2 := by
  obtain ⟨width, hl⟩ := lexeme_of_readPiece hne ht
  have htokens := tokens_of_token hne ht
  have hvalid := h.valid
  rw [htokens] at hvalid
  obtain ⟨hkind, hvalid⟩ := List.forall_mem_cons.1 hvalid
  cases h.place with
  | aligned ahead position =>
    obtain ⟨hl', hline⟩ := Lexeme.ofText?_withReturns hl hkind
    obtain ⟨x, u, hahead, rfl⟩ : ∃ x u, r.ahead = x ++ u ∧ width = x.length :=
      ⟨_, _, (List.take_append_drop width _).symm, (List.length_take_of_le (Lexeme.width_le hl)).symm⟩
    have hahead' : r'.ahead = x ++ u.withReturns := by
      rw [hahead, List.take_left] at hline
      rw [ahead, hahead, Text.withReturns_append, hline.withReturns]
    rw [← ahead] at hl'
    have hread := readPiece_of_token hahead hl
    have hread' := readPiece_of_token hahead' hl'
    rw [← ht, hread', hread, position]
    refine ⟨rfl, .aligned rfl rfl, h.comments, ?_⟩
    rw [hread] at hvalid
    exact hvalid
  | behindReturn ahead _ _ =>
    rw [ahead] at hl
    cases congrArg Lexeme.category (Option.some.inj hl)

/-- Trivia of one kind may be read of either text, if it leads to the same place. -/
theorem of_starts (h : InStep r r') {kind : TriviaKind} {x y u v : Text}
    (hahead : r.ahead = x ++ u) (hahead' : r'.ahead = y ++ v)
    (hstarts : Lexeme.Starts r.ahead (.trivia kind) x)
    (hstarts' : Lexeme.Starts r'.ahead (.trivia kind) y)
    (hfirst : kind = .whitespace ∨ r'.position = r.position)
    (hplace : SamePlace u (r.position.after x) v (r'.position.after y)) :
    (∃ t, r'.readPiece.1 = .trivia t) ∧ InStep r.readPiece.2 r'.readPiece.2 := by
  have hread := readPiece_of_trivia hahead hstarts
  have hvalid := h.valid
  rw [tokens_of_trivia hstarts.head?_of_trivia.1 (congrArg Prod.fst hread), hread] at hvalid
  rw [hread, readPiece_of_trivia hahead' hstarts']
  refine ⟨⟨_, rfl⟩, hplace, ?_, hvalid⟩
  rw [List.map_append, List.map_append, h.comments, ← Option.toList_map, ← Option.toList_map,
    Trivia.map_position_comment?, Trivia.map_position_comment?]
  rcases hfirst with rfl | hposition
  · rfl
  · rw [Span.ofText, Span.ofText, hposition]

/-- Both read trivia of the same kind. -/
theorem trivia (h : InStep r r') (hne : r.ahead ≠ []) {t : Trivia} (ht : r.readPiece.1 = .trivia t) :
    (∃ t', r'.readPiece.1 = .trivia t') ∧ InStep r.readPiece.2 r'.readPiece.2 := by
  obtain ⟨kind, x, span⟩ := t
  have hstarts : Lexeme.Starts r.ahead (.trivia kind) x := starts_of_readPiece hne ht
  obtain ⟨u, hahead⟩ : ∃ u : Text, r.ahead = x ++ u :=
    ⟨r.readPiece.2.ahead, by rw [← readPiece_text_append r, ht]; rfl⟩
  cases h.place with
  | aligned ahead position =>
    have hahead' : r'.ahead = x.withReturns ++ u.withReturns := by
      rw [ahead, hahead, Text.withReturns_append]
    have hplace : SamePlace u (r.position.after x) u.withReturns (r'.position.after x.withReturns) :=
      .aligned rfl (by rw [position, Position.after_withReturns])
    cases kind with
    | whitespace =>
      exact h.of_starts hahead hahead' hstarts (ahead ▸ hstarts.whitespace_withReturns)
        (Or.inl rfl) hplace
    | blockComment =>
      exact h.of_starts hahead hahead' hstarts (ahead ▸ hstarts.blockComment_withReturns)
        (Or.inr position) hplace
    | lineComment =>
      rcases hstarts.lineComment_withReturns with ⟨hx, hreturns, hstarts'⟩ | ⟨u, hu, hreturns, hstarts'⟩
      · -- the comment ends with the input
        refine h.of_starts (u := []) (v := []) ?_ ?_ hstarts (ahead ▸ hstarts') (Or.inr position) ?_
        · rw [List.append_nil, hx]
        · rw [List.append_nil, ahead, hreturns]
        · exact .aligned rfl (by rw [position])
      · -- the return that ends the line is read with the comment
        refine h.of_starts hu (ahead.trans hreturns) hstarts (ahead ▸ hstarts') (Or.inr position) ?_
        refine .behindReturn rfl rfl ?_
        rw [position, Position.after_append]
        rfl
  | @behindReturn rest ahead ahead' line =>
    -- the line feed ahead of both begins white space
    obtain ⟨y, v, rfl, rfl, rfl, hspace, hstop⟩ : ∃ y v : Text, kind = .whitespace ∧ x = '\n' :: y ∧
        rest = y ++ v ∧ (∀ c ∈ y, isSpace c = true) ∧ ∀ c ∈ v.head?, isSpace c = false := by
      rw [ahead] at hstarts
      cases hstarts with
      | lineComment mark _ _ _ | blockComment mark _ _ => cases (List.cons_prefix_cons.1 mark).1
      | @whitespace x v split ne_nil space stop =>
        obtain ⟨c, y, rfl⟩ := List.exists_cons_of_ne_nil ne_nil
        obtain ⟨rfl, hrest⟩ := List.cons.inj split
        exact ⟨y, v, rfl, rfl, hrest, (List.forall_mem_cons.1 space).2, stop⟩
    have hahead' : r'.ahead = ('\n' :: y.withReturns) ++ v.withReturns := by
      rw [ahead', Text.withReturns_append]
      rfl
    have hstarts' : Lexeme.Starts r'.ahead (.trivia .whitespace) ('\n' :: y.withReturns) :=
      .whitespace hahead' (List.cons_ne_nil _ _)
        (List.forall_mem_cons.2 ⟨rfl, Lexeme.isSpace_withReturns hspace⟩)
        (Lexeme.isSpace_head?_withReturns hstop)
    have hadvance : r'.position.advance '\n' = r.position.advance '\n' := by
      rw [Position.advance, Position.advance, if_pos rfl, if_pos rfl, line]
    refine h.of_starts ahead hahead' hstarts hstarts' (Or.inl rfl) (.aligned rfl ?_)
    rw [Position.after_cons, Position.after_withReturns, hadvance, Position.after_cons]

/-! ### Tokens -/

/-- Both come to the end at once. -/
theorem ahead_eq_nil (h : InStep r r') (hr : r.ahead = []) :
    r'.ahead = [] ∧ r'.position = r.position := by
  cases h.place with
  | aligned ahead position => exact ⟨by rw [ahead, hr]; rfl, position⟩
  | behindReturn ahead _ _ =>
    rw [ahead] at hr
    cases hr

theorem ahead_ne_nil (h : InStep r r') (hr : r.ahead ≠ []) : r'.ahead ≠ [] := by
  cases h.place with
  | aligned ahead _ =>
    rw [ahead]
    exact Text.withReturns_ne_nil hr
  | behindReturn _ ahead' _ =>
    rw [ahead']
    exact List.cons_ne_nil _ _

/-- **Two readers in step find the same token**, and then they are in step again. -/
theorem readToken (h : InStep r r') :
    r'.readToken.1 = r.readToken.1 ∧ InStep r.readToken.2 r'.readToken.2 := by
  induction r using pieces_induction generalizing r' with
  | atEnd r hr =>
    obtain ⟨hr', hposition⟩ := h.ahead_eq_nil hr
    rw [readToken_of_ahead_eq_nil hr, readToken_of_ahead_eq_nil hr', endToken, endToken, hposition]
    exact ⟨rfl, h⟩
  | step r hr ih =>
    have hr' := h.ahead_ne_nil hr
    rcases hstep : r.readPiece.1 with t | t
    · obtain ⟨⟨t', ht'⟩, honward⟩ := h.trivia hr hstep
      rw [readToken_of_trivia hr hstep, readToken_of_trivia hr' ht']
      exact ih honward
    · obtain ⟨ht', honward⟩ := h.token hr hstep
      rw [readToken_of_token hr hstep, readToken_of_token hr' ht']
      exact ⟨rfl, honward⟩

/-- Hence they find the same tokens. -/
theorem tokens (h : InStep r r') : r'.tokens.1 = r.tokens.1 := by
  induction r using pieces_induction generalizing r' with
  | atEnd r hr => rw [tokens_of_ahead_eq_nil hr, tokens_of_ahead_eq_nil (h.ahead_eq_nil hr).1]
  | step r hr ih =>
    have hr' := h.ahead_ne_nil hr
    rcases hstep : r.readPiece.1 with t | t
    · obtain ⟨⟨t', ht'⟩, honward⟩ := h.trivia hr hstep
      rw [tokens_of_trivia hr hstep, tokens_of_trivia hr' ht', ih honward]
    · obtain ⟨ht', honward⟩ := h.token hr hstep
      rw [tokens_of_token hr hstep, tokens_of_token hr' ht', ih honward]

end InStep

end Reader

namespace Scanner

/-! ## Two scanners -/

/-- Two scanners were asked for the same tokens of a source, the second one with returns in it. -/
structure InStep (s s' : Scanner) : Prop where
  /-- their readers are in step -/
  reader : Reader.InStep s.reader s'.reader
  /-- the openers are the same -/
  openers : s'.openers = s.openers
  /-- as many tokens were counted -/
  count : s'.count = s.count
  /-- the current token is the same -/
  current : s'.current = s.current

namespace InStep

variable {s s' : Scanner}

theorem start {source : Text} (h : ∀ t ∈ source.tokens, t.kind ≠ .invalid) :
    InStep (ofText source) (ofText source.withReturns) := by
  have hreader := Reader.InStep.start h
  have hkinds : source.withReturns.kinds = source.kinds := congrArg (List.map Token.kind) hreader.tokens
  exact ⟨hreader, congrArg GenericCall.openers hkinds, rfl, rfl⟩

theorem atEnd (h : InStep s s') : s'.atEnd = s.atEnd := by
  rw [Scanner.atEnd, Scanner.atEnd, h.current]

theorem index? (h : InStep s s') : s'.index? = s.index? := by
  rw [Scanner.index?, Scanner.index?, h.atEnd, h.count]

/-- **A request for a token keeps two scanners in step.** -/
theorem advance (h : InStep s s') : InStep s.advance s'.advance := by
  obtain ⟨htoken, hreader⟩ := h.reader.readToken
  rcases hend : s.atEnd with _ | _
  · have hend' := h.atEnd.trans hend
    rcases ht : s.reader.readToken.1.isEnd with _ | _
    · have hlabel : s'.relabel s.reader.readToken.1 = s.relabel s.reader.readToken.1 := by
        rw [relabel, relabel, h.openers, h.count]
      rw [advance_of_token hend ht, advance_of_token hend' (htoken ▸ ht), htoken, hlabel]
      exact ⟨hreader, h.openers, congrArg (· + 1) h.count, rfl⟩
    · rw [advance_of_isEnd hend ht, advance_of_isEnd hend' (htoken ▸ ht), htoken]
      exact ⟨hreader, h.openers, h.count, rfl⟩
  · rw [advance_of_atEnd hend, advance_of_atEnd (h.atEnd.trans hend)]
    exact h

theorem readKind (h : InStep s s') : s'.readKind.1 = s.readKind.1 := by
  rw [Scanner.readKind, Scanner.readKind, h.advance.current]

theorem readToken? (h : InStep s s') : s'.readToken?.1 = s.readToken?.1 := by
  rw [Scanner.readToken?, Scanner.readToken?, h.advance.atEnd, h.advance.current]

/-- Reading on to the end collects the same tokens. -/
theorem tokens (h : InStep s s') : s'.tokens.1 = s.tokens.1 ∧ InStep s.tokens.2 s'.tokens.2 := by
  induction s using tokens_induction generalizing s' with
  | atEnd s hnone =>
    rw [tokens_of_readToken?_eq_none hnone, tokens_of_readToken?_eq_none (h.readToken?.trans hnone)]
    exact ⟨rfl, h.advance⟩
  | step s t hsome ih =>
    obtain ⟨htokens, honward⟩ := ih h.advance
    rw [tokens_of_readToken?_eq_some hsome, tokens_of_readToken?_eq_some (h.readToken?.trans hsome)]
    exact ⟨congrArg (t :: ·) htokens, honward⟩

/-- Any request for tokens gets the same answer and keeps the scanners in step. -/
theorem serve (h : InStep s s') {q : Request} (hq : q = .kind ∨ q = .token? ∨ q = .tokens) :
    (s'.serve q).1 = (s.serve q).1 ∧ InStep (s.serve q).2 (s'.serve q).2 := by
  rcases hq with rfl | rfl | rfl
  · exact ⟨congrArg Reply.kind h.readKind, h.advance⟩
  · exact ⟨congrArg Reply.token? h.readToken?, h.advance⟩
  · exact ⟨congrArg Reply.tokens h.tokens.1, h.tokens.2⟩

theorem run (h : InStep s s') {qs : List Request}
    (hqs : ∀ q ∈ qs, q = .kind ∨ q = .token? ∨ q = .tokens) :
    (s'.run qs).1 = (s.run qs).1 ∧ InStep (s.run qs).2 (s'.run qs).2 := by
  induction qs generalizing s s' with
  | nil => exact ⟨rfl, h⟩
  | cons q qs ih =>
    obtain ⟨hq, hqs⟩ := List.forall_mem_cons.1 hqs
    obtain ⟨hreply, hstep⟩ := h.serve hq
    obtain ⟨hreplies, hrun⟩ := ih hstep hqs
    exact ⟨congrArg₂ List.cons hreply hreplies, hrun⟩

end InStep

/-- **Line ends do not matter.** A source without invalid tokens may end its lines with returns and
line feeds just as well: a scanner gives the same answers to all requests for tokens, with the same
kinds, labels included, the same texts and the same spans, and its current token is the same after
them. It meets as many comments, and each one begins where it did before. -/
theorem tokens_withReturns (source : Text) (h : ∀ t ∈ source.tokens, t.kind ≠ .invalid) :
    (ofText source.withReturns).tokens.1 = (ofText source).tokens.1 ∧
    (ofText source.withReturns).tokens.2.comments.map Comment.position =
      (ofText source).tokens.2.comments.map Comment.position ∧
    ∀ qs : List Request, (∀ q ∈ qs, q = .kind ∨ q = .token? ∨ q = .tokens) →
      ((ofText source.withReturns).run qs).1 = ((ofText source).run qs).1 ∧
      ((ofText source.withReturns).run qs).2.current = ((ofText source).run qs).2.current ∧
      ((ofText source.withReturns).run qs).2.index? = ((ofText source).run qs).2.index? ∧
      ((ofText source.withReturns).run qs).2.comments.map Comment.position =
        ((ofText source).run qs).2.comments.map Comment.position := by
  have hstart := InStep.start h
  obtain ⟨htokens, hend⟩ := hstart.tokens
  refine ⟨htokens, hend.reader.comments, fun qs hqs => ?_⟩
  obtain ⟨hreplies, hrun⟩ := hstart.run hqs
  exact ⟨hreplies, hrun.current, hrun.index?, hrun.reader.comments⟩

/-- The comment takes in the return, and nothing else shows it. -/
theorem tokens_withReturns_call :
    (∀ t ∈ Text.tokens "f<T>(x) // y\nz".toList, t.kind ≠ .invalid) ∧
      (ofText "f<T>(x) // y\r\nz".toList).tokens.1 = (ofText "f<T>(x) // y\nz".toList).tokens.1 := by
  have hvalid : ∀ t ∈ Text.tokens "f<T>(x) // y\nz".toList, t.kind ≠ .invalid := by decide +kernel
  have hreturns : Text.withReturns "f<T>(x) // y\nz".toList = "f<T>(x) // y\r\nz".toList := by decide
  exact ⟨hvalid, hreturns ▸ (tokens_withReturns _ hvalid).1⟩

/-- An invalid token that goes on to the end of the input takes its line ends along. -/
example : Text.tokens ['\x60', '\n'] ≠ Text.tokens (Text.withReturns ['\x60', '\n']) := by
  decide +kernel

end Scanner

end AngleLexer
