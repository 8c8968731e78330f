import AngleLexer.Proofs.Reader.Trivia
import AngleLexer.Proofs.Scanner.Coherence

/-!
# The end of the input

A scanner comes to the end of the input exactly if nothing but trivia is ahead, whatever it was asked
for before: raw characters may have taken half of the mark of a comment, and an invalid token may have
taken all that was left. The request that comes to the end takes the trivia and records its comments
(`Coherent.atEnd_advance_iff`, `advance_of_isTrivia`). From then on nothing is ahead and the end of the
input is current, so no request but one for another source changes anything (`Ended.serve`). Hence the
end is final in every session (`Scanner.end_of_input`).
-/

namespace AngleLexer.Scanner

variable {a : Account} {s : Scanner}

/-! ## Coming to the end -/

/-- The scanner behind the trivia that is ahead, with the end of the input as its current token. -/
def finish (s : Scanner) (cs : List Comment) : Scanner :=
  { s with reader := s.reader.finish cs, current := some (s.reader.finish cs).endToken }

/-- **Trivia leads to the end of the input.** -/
theorem advance_of_isTrivia {cs : List Comment} (hend : s.atEnd = false)
    (h : IsTrivia s.reader.position s.reader.ahead cs) : s.advance = s.finish cs := by
  have hread := Reader.readToken_of_isTrivia h
  rw [advance_of_isEnd hend (by rw [hread]; rfl), hread]
  rfl

theorem readKind_eq_endOfInput_iff : s.readKind.1 = .endOfInput ↔ s.advance.atEnd = true := by
  rw [← readKind_eq_endOfInput, decide_eq_true_iff]

/-- A request for a token comes to the end exactly if nothing but trivia is ahead. -/
theorem Coherent.atEnd_advance_iff (h : Coherent a s) :
    s.advance.atEnd = true ↔ ∃ cs, IsTrivia s.reader.position s.reader.ahead cs := by
  rcases hend : s.atEnd with _ | _
  · rw [← Reader.isEnd_readToken_iff]
    rcases ht : s.reader.readToken.1.isEnd with _ | _
    · rw [advance_of_token hend ht]
      exact iff_of_false (Bool.eq_false_iff.1 (isEnd_relabel ht)) Bool.false_ne_true
    · rw [advance_of_isEnd hend ht]
      exact iff_of_true ht rfl
  · rw [advance_of_atEnd hend]
    exact iff_of_true hend ⟨[], by rw [(h.ended hend).2]; exact .nil _⟩

/-! ## Staying there -/

/-- The end of the input was read, and nothing is ahead. -/
structure Ended (s : Scanner) : Prop where
  /-- the end of the input is the current token -/
  atEnd : s.atEnd = true
  /-- there is nothing left to be read -/
  ahead : s.reader.ahead = []

/-- What the end of the input answers to a request. Another source needs no answer. -/
def endReply : Request → Reply
  | .kind => .kind .endOfInput
  | .token? => .token? none
  | .tokens => .tokens []
  | .char? => .char? none
  | .restart _ => .done

namespace Ended

theorem readToken? (h : s.Ended) : s.readToken? = (none, s) := by
  have hadvance := advance_of_atEnd h.atEnd
  rw [Scanner.readToken?, hadvance]
  exact congrArg (·, s) (if_pos h.atEnd)

/-- **At the end no request changes anything**, unless it is for another source. -/
theorem serve (h : s.Ended) {q : Request} (hq : ∀ source, q ≠ .restart source) :
    s.serve q = (endReply q, s) := by
  cases q with
  | kind =>
    have hscanner : s.readKind.2 = s := advance_of_atEnd h.atEnd
    have hkind : s.readKind.1 = .endOfInput := by
      rw [readKind_eq_endOfInput_iff, advance_of_atEnd h.atEnd]
      exact h.atEnd
    rw [Scanner.serve, Prod.map, hkind, hscanner]
    rfl
  | token? =>
    rw [Scanner.serve, h.readToken?]
    rfl
  | tokens =>
    have hnone : s.readToken?.1 = none := congrArg Prod.fst h.readToken?
    rw [Scanner.serve, tokens_of_readToken?_eq_none hnone, h.readToken?]
    rfl
  | char? =>
    rw [Scanner.serve, Scanner.readChar?, Reader.readChar?, h.ahead]
    rfl
  | restart source => exact absurd rfl (hq source)

theorem run (h : s.Ended) {qs : List Request} (hqs : ∀ q ∈ qs, ∀ source, q ≠ .restart source) :
    s.run qs = (qs.map endReply, s) := by
  induction qs with
  | nil => rfl
  | cons q qs ih =>
    obtain ⟨hq, hqs⟩ := List.forall_mem_cons.1 hqs
    rw [Scanner.run, h.serve hq, ih hqs]
    rfl

end Ended

/-- The end of the input is reached behind the trivia that was ahead. -/
theorem Coherent.ended_advance (h : Coherent a s) {cs : List Comment}
    (hcs : IsTrivia s.reader.position s.reader.ahead cs) :
    s.advance.Ended ∧ s.advance.reader = s.reader.finish cs := by
  have hatEnd := h.atEnd_advance_iff.2 ⟨cs, hcs⟩
  rcases hend : s.atEnd with _ | _
  · rw [advance_of_isTrivia hend hcs] at hatEnd ⊢
    refine ⟨⟨hatEnd, ?_⟩, rfl⟩
    rw [finish, Reader.finish_eq]
  · -- the end was reached before, so the trivia is empty
    have hahead := (h.ended hend).2
    rw [hahead] at hcs
    cases hcs
    rw [advance_of_atEnd hend, Reader.finish_of_ahead_eq_nil hahead]
    exact ⟨⟨hend, hahead⟩, rfl⟩

/-- **The end of the input is final**, in whatever way a session comes to it. A request for a token
comes to the end exactly if nothing but white space and complete comments is ahead. Then it takes all of
that and records the comments, and there is no index any more. From then on every request but one for
another source gets the answer of the end, and the scanner stays as it is. -/
theorem end_of_input (source : Text) (qs : List Request) :
    let s := ((ofText source).run qs).2
    (s.readKind.1 = .endOfInput ↔ ∃ cs, IsTrivia s.reader.position s.reader.ahead cs) ∧
    ∀ cs, IsTrivia s.reader.position s.reader.ahead cs →
      s.readKind.2.reader.consumed = s.reader.consumed ++ s.reader.ahead ∧
      s.readKind.2.reader.ahead = [] ∧
      s.readKind.2.comments = s.comments ++ cs ∧
      s.readKind.2.text = [] ∧ s.readKind.2.index? = none ∧
      ∀ qs' : List Request, (∀ q ∈ qs', ∀ source', q ≠ .restart source') →
        s.readKind.2.run qs' = (qs'.map endReply, s.readKind.2) := by
  intro s
  have hs : Coherent _ s := (Coherent.start source).run qs
  refine ⟨?_, ?_⟩
  · rw [readKind_eq_endOfInput_iff]
    exact hs.atEnd_advance_iff
  · intro cs hcs
    obtain ⟨hended, hreader⟩ := hs.ended_advance hcs
    change s.advance.reader.consumed = _ ∧ s.advance.reader.ahead = [] ∧ s.advance.comments = _ ∧
      s.advance.text = [] ∧ s.advance.index? = none ∧ _
    have hcomments : s.advance.comments = s.advance.reader.comments := rfl
    refine ⟨?_, hended.ahead, ?_, (hs.advance.ended hended.atEnd).1, ?_, fun _ => hended.run⟩
    · rw [hreader, Reader.finish_eq, Reader.consumed, List.reverse_append, List.reverse_reverse]
      rfl
    · rw [hcomments, hreader, Reader.finish_eq]
      rfl
    · rw [index?, if_pos hended.atEnd]

/-- Of `///**/` the first character is taken; what is left is one comment to the end of the line. -/
example : ((ofText "a///**/".toList).run [.kind, .char?, .token?, .char?]).1 =
    [.kind .identifier, .char? (some '/'), .token? none, .char? none] := by
  decide +kernel

end AngleLexer.Scanner
