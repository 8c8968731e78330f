import AngleLexer.Proofs.Scanner.RawCharacters

/-!
# A scanner stays coherent

What a scanner says about its current token hangs together, whatever it is asked for: requests for
tokens, raw characters and new sources in any order. To say so, a session is written down beside the
scanner, in an `Account`: the source handed over last, where the text of the current token begins in it,
how many tokens were handed out, and whether the last one asked for was the end of the input. Most of
that can be seen in the requests and their answers. Where the text begins cannot: it moves when a token
is read, as far back from the reader as the token is long, and raw characters leave it where it is.

One request keeps scanner and account in agreement (`Coherent.serve`), so a whole session does
(`Scanner.session_coherent`).
-/

namespace AngleLexer

namespace Reader

/-- Where the next token begins, in characters: as far back as its text is long. -/
def tokenStart (r : Reader) : Nat := r.readToken.2.consumed.length - r.readToken.1.text.length

/-- A token is read behind some trivia. -/
theorem exists_skipped_readToken (r : Reader) :
    ∃ skipped, r.readToken.2.consumed = r.consumed ++ skipped ++ r.readToken.1.text ∧
      r.readToken.1.span = .ofText (r.position.after skipped) r.readToken.1.text ∧
      r.readToken.2.position = r.readToken.1.span.last := by
  fun_induction readToken r with
  | case1 r hr => exact ⟨[], by simp [endToken], rfl, rfl⟩
  | case2 r hr step t ht =>
    have hconsumed := consumed_readPiece r
    have hspan := readPiece_span r
    have hposition := readPiece_position r
    rw [ht] at hconsumed hspan hposition
    exact ⟨[], by rw [List.append_nil]; exact hconsumed, hspan, hposition⟩
  | case3 r hr step t ht ih =>
    obtain ⟨skipped, hconsumed, hspan, hposition⟩ := ih
    have hpiece := readPiece_position r
    rw [readPiece_span] at hpiece
    refine ⟨r.readPiece.1.text ++ skipped, ?_, ?_, hposition⟩
    · rw [hconsumed, consumed_readPiece, List.append_assoc, List.append_assoc, List.append_assoc,
        List.append_assoc]
    · rw [hspan, Position.after_append]
      exact congrArg (fun p => Span.ofText (Position.after p skipped) _) hpiece

end Reader

namespace Scanner

/-! ## Accounts -/

/-- A session, written down beside the scanner. -/
structure Account where
  /-- the source handed over last -/
  source : Text
  /-- where the text of the current token begins in it, in characters -/
  start : Nat
  /-- how many tokens were handed out since then -/
  handed : Nat
  /-- whether the last answer to a request for a token was the end of the input -/
  ended : Bool

namespace Account

/-- Nothing was asked for yet. -/
def fresh (source : Text) : Account := ⟨source, 0, 0, false⟩

/-- A token was asked for, and the answer was the end of the input or not. -/
def read (a : Account) (s : Scanner) (ended : Bool) : Account :=
  { a with
    start := if a.ended then a.start else s.reader.tokenStart
    handed := if ended then a.handed else a.handed + 1
    ended := ended }

/-- What a request to the scanner `s` and its answer add. If all tokens are collected, the current one is
the end of the input, whose text begins at the end of the source. -/
def note (a : Account) (s : Scanner) : Request → Account
  | .kind => a.read s (decide (s.readKind.1 = .endOfInput))
  | .token? => a.read s s.readToken?.1.isNone
  | .tokens => ⟨a.source, a.source.length, a.handed + s.tokens.1.length, true⟩
  | .char? => a
  | .restart source => fresh source

/-- The account of a session that goes on from the scanner `s`. -/
def track (a : Account) (s : Scanner) : List Request → Account
  | [] => a
  | q :: qs => (a.note s q).track (s.serve q).2 qs

end Account

/-! ## Coherence -/

/-- The scanner is where the account says. -/
structure Coherent (a : Account) (s : Scanner) : Prop where
  /-- it reads the source of the account -/
  source_eq : s.reader.source = a.source
  /-- its position is that of what it has read -/
  position : s.reader.position = Position.start.after s.reader.consumed
  /-- what it has read ends with the text of the current token, from its start on -/
  consumed : ∃ before, s.reader.consumed = before ++ s.text ∧ before.length = a.start ∧
    s.span = ⟨Position.start.after before, s.reader.position⟩
  /-- without a current token nothing was read -/
  fresh : s.current = none → s.reader.consumed = []
  /-- the tokens were counted -/
  count : s.count = a.handed
  /-- the end of the input is current if it was the last answer -/
  atEnd : s.atEnd = a.ended
  /-- and then nothing is left to be read -/
  ended : s.atEnd = true → s.text = [] ∧ s.reader.ahead = []

variable {a : Account} {s : Scanner}

/-! ### Answers -/

/-- After a request for a token there is a current token. -/
theorem exists_current_advance (s : Scanner) : ∃ t, s.advance.current = some t := by
  rcases hend : s.atEnd with _ | _
  · rcases ht : s.reader.readToken.1.isEnd with _ | _
    · exact ⟨_, by rw [advance_of_token hend ht]⟩
    · exact ⟨_, by rw [advance_of_isEnd hend ht]⟩
  · obtain ⟨t, hcurrent, -⟩ := (Option.any_eq_true _ _).1 hend
    exact ⟨t, by rw [advance_of_atEnd hend, hcurrent]⟩

theorem readKind_eq_endOfInput (s : Scanner) :
    decide (s.readKind.1 = .endOfInput) = s.advance.atEnd := by
  obtain ⟨t, ht⟩ := exists_current_advance s
  rw [readKind, atEnd, ht]
  rfl

theorem isNone_readToken? (s : Scanner) : s.readToken?.1.isNone = s.advance.atEnd := by
  obtain ⟨t, ht⟩ := exists_current_advance s
  rw [readToken?]
  dsimp only
  rcases s.advance.atEnd with _ | _
  · rw [ht]
    rfl
  · rfl

/-! ### One request -/

theorem text_extend (s : Scanner) (c : Char) (last : Position) :
    (s.extend c last).text = s.text ++ [c] := by
  rw [extend, text]
  rcases s.current with _ | t <;> rfl

theorem span_extend (s : Scanner) (c : Char) (last : Position) :
    (s.extend c last).span = ⟨s.span.first, last⟩ := by
  rw [extend, span]
  rcases s.current with _ | t <;> rfl

theorem Coherent.start (source : Text) : Coherent (.fresh source) (ofText source) where
  source_eq := rfl
  position := rfl
  consumed := ⟨[], rfl, rfl, rfl⟩
  fresh := fun _ => rfl
  count := rfl
  atEnd := rfl
  ended := nofun

/-- A token that is read becomes the current one, and its text ends where the reader stands. -/
theorem Coherent.of_token (h : Coherent a s) {v : Scanner} {u : Token} {handed : Nat} {ended : Bool}
    (hreader : v.reader = s.reader.readToken.2) (hcurrent : v.current = some u)
    (htext : u.text = s.reader.readToken.1.text) (hspan : u.span = s.reader.readToken.1.span)
    (hcount : v.count = handed) (hatEnd : v.atEnd = ended)
    (hended : ended = true → s.reader.readToken.1.isEnd = true) :
    Coherent ⟨a.source, s.reader.tokenStart, handed, ended⟩ v := by
  obtain ⟨skipped, hconsumed, hplace, hposition⟩ := s.reader.exists_skipped_readToken
  have hv : v.text = s.reader.readToken.1.text := by
    rw [text, hcurrent, ← htext]
    rfl
  have hbefore : Position.start.after (s.reader.consumed ++ skipped) = s.reader.position.after skipped := by
    rw [Position.after_append, h.position]
  have hstart : (s.reader.consumed ++ skipped).length = s.reader.tokenStart := by
    rw [Reader.tokenStart, hconsumed]
    exact (Nat.sub_eq_of_eq_add List.length_append).symm
  refine ⟨?_, ?_, ⟨s.reader.consumed ++ skipped, ?_, hstart, ?_⟩, ?_, hcount, hatEnd, ?_⟩
  · rw [hreader, Reader.source_readToken, h.source_eq]
  · rw [hreader, hposition, hplace, hconsumed, Position.after_append, hbefore]
    rfl
  · rw [hreader, hconsumed, hv]
  · rw [span, hcurrent, Option.map_some, Option.getD_some, hspan, hreader, hposition, hplace, hbefore]
    rfl
  · intro hnone
    rw [hcurrent] at hnone
    cases hnone
  · intro hend
    obtain ⟨-, htoken, hahead⟩ := Reader.tokens_of_isEnd (hended (hatEnd ▸ hend))
    rw [hv, htoken, hreader]
    exact ⟨rfl, hahead⟩

/-- A request for a token keeps the scanner coherent. -/
theorem Coherent.advance (h : Coherent a s) : Coherent (a.read s s.advance.atEnd) s.advance := by
  rcases hend : s.atEnd with _ | _
  · have hread (ended : Bool) : a.read s ended = ⟨a.source, s.reader.tokenStart,
        if ended then a.handed else a.handed + 1, ended⟩ := by
      rw [Account.read, ← h.atEnd, hend]
      rfl
    rcases ht : s.reader.readToken.1.isEnd with _ | _
    · have hadvance := advance_of_token hend ht
      have hatEnd : s.advance.atEnd = false := by
        rw [hadvance]
        exact isEnd_relabel ht
      rw [hatEnd, hread]
      exact h.of_token (by rw [hadvance]) (by rw [hadvance]) (text_relabel s _) (span_relabel s _)
        (by rw [hadvance, ← h.count]; rfl) hatEnd nofun
    · have hadvance := advance_of_isEnd hend ht
      have hatEnd : s.advance.atEnd = true := by
        rw [hadvance]
        exact ht
      rw [hatEnd, hread]
      exact h.of_token (by rw [hadvance]) (by rw [hadvance]) rfl rfl
        (by rw [hadvance, ← h.count]; rfl) hatEnd fun _ => ht
  · have hread : a.read s true = a := by
      have hended : a.ended = true := h.atEnd.symm.trans hend
      rw [Account.read, if_pos hended, if_pos rfl, ← hended]
    rw [advance_of_atEnd hend, hend, hread]
    exact h

theorem readChar?_of_ahead {c : Char} {rest : Text} (h : s.reader.ahead = c :: rest) :
    s.readChar? = (some c, { s with
      reader := s.reader.skip 1
      current := some (s.extend c (s.reader.skip 1).position) }) := by
  rw [Scanner.readChar?, Reader.readChar?, h]

/-- A raw character keeps the scanner coherent: it goes from the text ahead to the current token. -/
theorem Coherent.readChar? (h : Coherent a s) : Coherent a s.readChar?.2 := by
  rcases hahead : s.reader.ahead with _ | ⟨c, rest⟩
  · rw [Scanner.readChar?, Reader.readChar?, hahead]
    exact h
  have hread := congrArg Prod.snd (readChar?_of_ahead hahead)
  -- something is ahead, so the end of the input was not read
  have hend : s.atEnd = false := by
    refine Bool.not_eq_true _ ▸ fun hend => ?_
    rw [(h.ended hend).2] at hahead
    cases hahead
  have hatEnd := atEnd_readChar? hend
  have hskip : (s.reader.skip 1).consumed = s.reader.consumed ++ [c] := by
    rw [Reader.consumed_skip, hahead]
    rfl
  have hposition : (s.reader.skip 1).position = s.reader.position.after [c] := by
    rw [Reader.skip, hahead]
    rfl
  obtain ⟨before, hconsumed, hstart, hspan⟩ := h.consumed
  rw [hread] at hatEnd ⊢
  refine ⟨?_, ?_, ⟨before, ?_, hstart, ?_⟩, ?_, h.count, ?_, ?_⟩
  · rw [Reader.source_skip, h.source_eq]
  · rw [hskip, hposition, h.position, Position.after_append]
  · rw [hskip, hconsumed, List.append_assoc]
    exact congrArg (before ++ ·) (text_extend s c _).symm
  · change (s.extend c _).span = _
    rw [span_extend, hspan]
  · intro hnone
    cases hnone
  · rw [hatEnd, ← h.atEnd, hend]
  · intro hend'
    rw [hatEnd] at hend'
    cases hend'

/-- Where the end of the input was read, its empty text stands at the end of the source. -/
theorem Coherent.start_of_atEnd (h : Coherent a s) (hend : s.atEnd = true) : a.start = a.source.length := by
  obtain ⟨htext, hahead⟩ := h.ended hend
  obtain ⟨before, hconsumed, hstart, -⟩ := h.consumed
  rw [← hstart, ← h.source_eq, Reader.source, hconsumed, htext, hahead, List.append_nil, List.append_nil]

/-- Reading on to the end keeps the scanner coherent. -/
theorem Coherent.tokens (h : Coherent a s) :
    Coherent ⟨a.source, a.source.length, a.handed + s.tokens.1.length, true⟩ s.tokens.2 := by
  induction s using tokens_induction generalizing a with
  | atEnd s hnone =>
    have hatEnd : s.advance.atEnd = true := by
      rw [← isNone_readToken?, hnone]
      rfl
    have hstep := h.advance
    have hstart := hstep.start_of_atEnd hatEnd
    rw [hatEnd] at hstep hstart
    rw [tokens_of_readToken?_eq_none hnone]
    change Coherent ⟨a.source, (a.read s true).source.length, a.handed, true⟩ s.advance
    rw [← hstart]
    exact hstep
  | step s t hsome ih =>
    have hatEnd : s.advance.atEnd = false := by
      rw [← isNone_readToken?, hsome]
      rfl
    have hrest := ih h.advance
    rw [hatEnd] at hrest
    rw [tokens_of_readToken?_eq_some hsome, List.length_cons, Nat.add_comm _ 1, ← Nat.add_assoc]
    exact hrest

/-- **One request keeps the scanner coherent.** -/
theorem Coherent.serve (h : Coherent a s) (q : Request) : Coherent (a.note s q) (s.serve q).2 := by
  cases q with
  | kind =>
    rw [Account.note, readKind_eq_endOfInput]
    exact h.advance
  | token? =>
    rw [Account.note, isNone_readToken?]
    exact h.advance
  | tokens => exact h.tokens
  | char? => exact h.readChar?
  | restart source => exact .start source

theorem Coherent.run (h : Coherent a s) (qs : List Request) :
    Coherent (a.track s qs) (s.run qs).2 := by
  induction qs generalizing a s with
  | nil => exact h
  | cons q qs ih => exact ih (h.serve q)

/-- What was read ends with the text of the current token. -/
theorem Coherent.consumed_eq (h : Coherent a s) : s.reader.consumed = s.before ++ s.text := by
  obtain ⟨before, hconsumed, -, -⟩ := h.consumed
  have hbehind : s.reader.behind = s.text.reverse ++ before.reverse := by
    rw [← List.reverse_append, ← hconsumed, Reader.consumed, List.reverse_reverse]
  rw [Scanner.before, hbehind, List.drop_left' List.length_reverse, List.reverse_reverse, hconsumed]

/-! ## Sessions -/

theorem index?_eq_some_iff {k : Nat} : s.index? = some k ↔ s.count = k + 1 ∧ s.atEnd = false := by
  rw [index?]
  rcases s.atEnd with _ | _
  · rw [if_neg Bool.false_ne_true]
    rcases s.count with _ | n <;> simp
  · simp

/-- **A scanner stays coherent** in every session. The text of the current token is the source from its
start up to the reader, its span goes from the position of the start to that of the reader, and what
lies before it is the source up to its start; without a current token nothing was read. The index is
known exactly if a token was handed out and the end of the input was not the last answer, and then it
counts the tokens handed out before. -/
theorem session_coherent (source : Text) (qs : List Request) :
    let s := ((ofText source).run qs).2
    let a := (Account.fresh source).track (ofText source) qs
    let offset := s.reader.consumed.length
    s.reader.source = a.source ∧
    s.reader.position = Position.start.after (a.source.take offset) ∧
    (∀ t, s.current = some t → a.start ≤ offset ∧ t.text = (a.source.take offset).drop a.start ∧
      t.span.first = Position.start.after (a.source.take a.start) ∧ t.span.last = s.reader.position) ∧
    (s.current = none → a.start = 0 ∧ offset = 0) ∧
    s.before = a.source.take a.start ∧
    ∀ k, s.index? = some k ↔ a.handed = k + 1 ∧ a.ended = false := by
  intro s a offset
  have h : Coherent a s := (Coherent.start source).run qs
  obtain ⟨before, hconsumed, hstart, hspan⟩ := h.consumed
  have hoffset : a.source.take offset = before ++ s.text := by
    rw [← h.source_eq, Reader.source, List.take_left, hconsumed]
  have hbefore : a.source.take a.start = before := by
    rw [← h.source_eq, Reader.source, hconsumed, ← hstart, List.append_assoc, List.take_left]
  refine ⟨h.source_eq, ?_, ?_, ?_, ?_, ?_⟩
  · rw [hoffset, ← hconsumed]
    exact h.position
  · intro t ht
    have htext : s.text = t.text := by rw [text, ht]; rfl
    have hplace : s.span = t.span := by rw [span, ht]; rfl
    rw [hplace] at hspan
    refine ⟨?_, ?_, ?_, ?_⟩
    · have hlength : offset = before.length + s.text.length :=
        (congrArg List.length hconsumed).trans List.length_append
      rw [← hstart, hlength]
      exact Nat.le_add_right _ _
    · rw [hoffset, ← hstart, List.drop_left, htext]
    · rw [hbefore, hspan]
    · rw [hspan]
  · intro hnone
    have hnil := h.fresh hnone
    rw [hnil] at hconsumed
    obtain ⟨rfl, -⟩ := List.append_eq_nil_iff.1 hconsumed.symm
    exact ⟨hstart.symm, congrArg List.length hnil⟩
  · have hbehind : s.reader.behind = s.text.reverse ++ before.reverse := by
      rw [← List.reverse_append, ← hconsumed, Reader.consumed, List.reverse_reverse]
    rw [hbefore, Scanner.before, hbehind, List.drop_left' List.length_reverse, List.reverse_reverse]
  · intro k
    rw [index?_eq_some_iff, h.count, h.atEnd]

end Scanner

end AngleLexer
