import AngleLexer.Proofs.Scanner.Labels
import AngleLexer.Scanner.Context

/-!
# Raw characters and labels

A scanner knows the openers of generic calls by index, and finds an index again by counting the
tokens that it hands out. A raw character is not counted. If a parser takes raw characters that
make up a token, or that split one in two, count and index come apart, and a label may go to a `<`
that opens nothing. Four characters are enough for that: in `<>(<`, the label may go to either `<`.

How far they can come apart depends on the source alone. `Reads k t u` says that a text can be read
up to its end `u` with `k` tokens read and any characters skipped on the way. Sessions with a scanner
do just that (`Reached.of_run`, `exists_run_of_reads`), so the source decides whether a parser
can make labels go astray.
-/

namespace AngleLexer

/-- An opener of a generic call begins at the offset. -/
def Text.HasOpenerAt (source : Text) (o : Nat) : Prop :=
  ∃ k ∈ GenericCall.openers source.kinds, source.tokenOffsets[k]? = some o

instance (source : Text) (o : Nat) : Decidable (source.HasOpenerAt o) :=
  inferInstanceAs (Decidable (∃ k ∈ GenericCall.openers source.kinds, _ = some o))

/-! ## Reading with characters skipped -/

/-- From the first text the second one can be reached by reading as many tokens as the number says
and skipping any characters before, between and after them. -/
inductive Reads : Nat → Text → Text → Prop
  /-- nothing is read and nothing is skipped -/
  | done (t : Text) : Reads 0 t t
  /-- a character is skipped -/
  | skip {k : Nat} {c : Char} {t u : Text} (rest : Reads k t u) : Reads k (c :: t) u
  /-- a token is read -/
  | token {k width : Nat} {kind : Kind} {t u : Text}
    (lexeme : Lexeme.ofText? t = some ⟨.token kind, width⟩) (rest : Reads k (t.drop width) u) :
    Reads (k + 1) t u

namespace Reads

variable {k : Nat} {t u : Text}

/-- More characters can be skipped at the end. -/
theorem drop (h : Reads k t u) (n : Nat) : Reads k t (u.drop n) := by
  induction h with
  | done t =>
    -- after the last token the characters are skipped one by one
    induction t generalizing n with
    | nil =>
      rw [List.drop_nil]
      exact done []
    | cons c t ih =>
      rcases n with _ | n
      · exact done (c :: t)
      · exact skip (ih n)
  | skip _ ih => exact skip ih
  | token lexeme _ ih => exact token lexeme ih

/-- Another token can be read at the end. -/
theorem read (h : Reads k t u) {kind : Kind} {width : Nat}
    (lexeme : Lexeme.ofText? u = some ⟨.token kind, width⟩) : Reads (k + 1) t (u.drop width) := by
  induction h with
  | done t => exact token lexeme (done _)
  | skip _ ih => exact skip (ih lexeme)
  | token lexeme' _ ih => exact token lexeme' (ih lexeme)

end Reads

namespace Scanner

/-! ## What sessions reach -/

/-- The scanner got to where it is by reading the source, perhaps with raw characters. -/
structure Reached (source : Text) (s : Scanner) : Prop where
  /-- the openers are those of the source -/
  openers : s.openers = GenericCall.openers source.kinds
  /-- the source is the one read from -/
  source_eq : s.reader.source = source
  /-- as many tokens as were counted can be read on the way -/
  reads : Reads s.count source s.reader.ahead

theorem Reached.start (source : Text) : Reached source (ofText source) :=
  ⟨rfl, rfl, .done source⟩

/-- The next token is read from a place that the tokens counted so far can lead to. -/
theorem Reached.next {source : Text} {s : Scanner} (h : Reached source s)
    (ht : s.reader.readToken.1.isEnd = false) :
    ∃ r : Reader, r.source = source ∧ Reads s.count source r.ahead ∧ r.ahead ≠ [] ∧
      r.readPiece = (.token s.reader.readToken.1, s.reader.readToken.2) := by
  obtain ⟨n, r, hahead, hsource, hne, hpiece⟩ := Reader.exists_readPiece_eq_readToken ht
  exact ⟨r, hsource.trans h.source_eq, hahead ▸ h.reads.drop n, hne, hpiece⟩

theorem Reached.advance {source : Text} {s : Scanner} (h : Reached source s) :
    Reached source s.advance := by
  have hsource := (Reader.source_readToken s.reader).trans h.source_eq
  rcases hend : s.atEnd with _ | _
  · rcases ht : s.reader.readToken.1.isEnd with _ | _
    · obtain ⟨r, -, hreads, hne, hpiece⟩ := h.next ht
      obtain ⟨width, hlexeme⟩ := Reader.lexeme_of_readPiece hne (congrArg Prod.fst hpiece)
      have hahead : s.reader.readToken.2.ahead = r.ahead.drop width := by
        rw [← congrArg Prod.snd hpiece, Reader.readPiece_of_ofText? hlexeme]
        rfl
      rw [advance_of_token hend ht]
      exact ⟨h.openers, hsource, hahead ▸ hreads.read hlexeme⟩
    · obtain ⟨-, -, hahead⟩ := Reader.tokens_of_isEnd ht
      have hreads := h.reads.drop s.reader.ahead.length
      rw [List.drop_length, ← hahead] at hreads
      rw [advance_of_isEnd hend ht]
      exact ⟨h.openers, hsource, hreads⟩
  · rw [advance_of_atEnd hend]
    exact h

theorem Reached.readChar? {source : Text} {s : Scanner} (h : Reached source s) :
    Reached source s.readChar?.2 := by
  rw [Scanner.readChar?, Reader.readChar?]
  rcases hahead : s.reader.ahead with _ | ⟨c, rest⟩
  · exact h
  · refine ⟨h.openers, (Reader.source_skip 1 s.reader).trans h.source_eq, ?_⟩
    exact h.reads.drop 1

/-- Whatever tokens and raw characters a parser asks for, it gets on by reading and skipping. -/
theorem Reached.of_run {source : Text} {s : Scanner} (h : Reached source s) {qs : List Request}
    (hqs : ∀ q ∈ qs, q = .kind ∨ q = .token? ∨ q = .char?) : Reached source (s.run qs).2 := by
  induction qs generalizing s with
  | nil => exact h
  | cons q qs ih =>
    obtain ⟨hq, hqs⟩ := List.forall_mem_cons.1 hqs
    have hstep : Reached source (s.serve q).2 := by
      rcases hq with rfl | rfl | rfl
      · exact h.advance
      · exact h.advance
      · exact h.readChar?
    exact ih hstep hqs

/-- Where the reader stands is known from the text that it has ahead. -/
theorem Reached.length_behind {source : Text} {s : Scanner} (h : Reached source s) {o : Nat}
    (hahead : s.reader.ahead = source.drop o) (hne : s.reader.ahead ≠ []) :
    s.reader.behind.length = o := by
  have hpos := List.length_pos_iff.2 hne
  have hlengths := congrArg List.length (Reader.drop_source s.reader)
  rw [h.source_eq, hahead, List.length_drop, List.length_drop] at hlengths
  rw [hahead, List.length_drop] at hpos
  omega

/-! ## What can be reached -/

/-- A raw character does not end the input. -/
theorem atEnd_readChar? {s : Scanner} (h : s.atEnd = false) : s.readChar?.2.atEnd = false := by
  rw [readChar?]
  rcases s.reader.readChar? with _ | ⟨c, reader⟩
  · exact h
  · rcases hcurrent : s.current with _ | t
    · simp [atEnd, extend, hcurrent, Token.isEnd]
    · simpa [atEnd, extend, hcurrent, Token.isEnd] using h

/-- A label does not end the input either. -/
theorem isEnd_relabel {s : Scanner} {t : Token} (h : t.isEnd = false) :
    (s.relabel t).isEnd = false := by
  unfold relabel
  split
  · rfl
  · exact h

/-- A label changes nothing but the kind. -/
theorem text_relabel (s : Scanner) (t : Token) : (s.relabel t).text = t.text := by
  unfold relabel
  split <;> rfl

theorem span_relabel (s : Scanner) (t : Token) : (s.relabel t).span = t.span := by
  unfold relabel
  split <;> rfl

/-- **Every such reading is that of a session**: a parser asks for the tokens that are read, and
takes the characters that are skipped. -/
theorem exists_run_of_reads {k : Nat} {t u : Text} (h : Reads k t u) {s : Scanner}
    (hahead : s.reader.ahead = t) (hend : s.atEnd = false) :
    ∃ qs : List Request, (∀ q ∈ qs, q = .kind ∨ q = .token? ∨ q = .char?) ∧
      (s.run qs).2.reader.ahead = u ∧ (s.run qs).2.count = s.count + k ∧
      (s.run qs).2.atEnd = false := by
  induction h generalizing s with
  | done t => exact ⟨[], by simp, hahead, rfl, hend⟩
  | @skip k c t u _ ih =>
    have hchar : s.readChar?.2.reader = s.reader.skip 1 ∧ s.readChar?.2.count = s.count := by
      simp [Scanner.readChar?, Reader.readChar?, hahead]
    obtain ⟨qs, hqs, hu, hcount, hend'⟩ := ih (s := s.readChar?.2)
      (by rw [hchar.1, Reader.skip, hahead]; rfl) (atEnd_readChar? hend)
    refine ⟨.char? :: qs, ?_, hu, hcount.trans (by rw [hchar.2]), hend'⟩
    exact List.forall_mem_cons.2 ⟨Or.inr (Or.inr rfl), hqs⟩
  | @token k width kind t u lexeme _ ih =>
    rw [← hahead] at lexeme
    obtain ⟨-, -, hrest⟩ := Reader.readToken_of_lexeme lexeme
    have ht := Reader.isEnd_readToken_of_lexeme lexeme
    have hadvance := advance_of_token hend ht
    obtain ⟨qs, hqs, hu, hcount, hend'⟩ := ih (s := s.advance)
      (by rw [hadvance, ← hahead]; exact hrest)
      (by rw [hadvance, atEnd, Option.any_some]; exact isEnd_relabel ht)
    refine ⟨.kind :: qs, ?_, hu, hcount.trans ?_, hend'⟩
    · exact List.forall_mem_cons.2 ⟨Or.inl rfl, hqs⟩
    · rw [hadvance]
      exact Nat.add_right_comm s.count 1 k

/-! ## Where labels go -/

theorem readKind_of_token {s : Scanner} (hend : s.atEnd = false)
    (ht : s.reader.readToken.1.isEnd = false) :
    s.readKind.1 = (s.relabel s.reader.readToken.1).kind := by
  rw [readKind, advance_of_token hend ht]
  rfl

/-- Whatever kind is handed out, unless it is the end of the input, is that of a token that the
reader finds. -/
theorem isEnd_of_readKind_ne_endOfInput {s : Scanner} (h : s.readKind.1 ≠ .endOfInput) :
    s.atEnd = false ∧ s.reader.readToken.1.isEnd = false := by
  rw [readKind] at h
  rcases hend : s.atEnd with _ | _
  · rcases ht : s.reader.readToken.1.isEnd with _ | _
    · exact ⟨rfl, rfl⟩
    · rw [advance_of_isEnd hend ht] at h
      exact absurd (of_decide_eq_true ht) h
  · obtain ⟨t, hcurrent, ht⟩ := (Option.any_eq_true _ _).1 hend
    rw [advance_of_atEnd hend, hcurrent] at h
    exact absurd (of_decide_eq_true ht) h

/-- A label is given to a comparison whose count is that of an opener, wherever it stands. -/
theorem readKind_eq_genericLt_iff {s : Scanner} (hend : s.atEnd = false)
    (ht : s.reader.readToken.1.isEnd = false) :
    s.readKind.1 = .genericLt ↔
      s.reader.readToken.1.kind = .symbol .lt ∧ s.count ∈ s.openers := by
  have hkind : s.reader.readToken.1.kind ≠ .genericLt := by
    refine (Reader.kind_of_mem_tokens (r := s.reader) ?_).2
    rw [Reader.tokens_of_readToken ht]
    exact List.mem_cons_self
  rw [readKind_of_token hend ht, relabel]
  split
  · exact iff_of_true rfl ‹_›
  · exact iff_of_false hkind ‹_›

/-- The text before a token that was just read is the text that was behind the reader then. -/
theorem length_before_advance {s : Scanner} {r : Reader} (hend : s.atEnd = false)
    (ht : s.reader.readToken.1.isEnd = false)
    (hpiece : r.readPiece = (.token s.reader.readToken.1, s.reader.readToken.2)) :
    s.advance.before.length = r.behind.length := by
  have hbehind := congrArg List.length (Reader.consumed_readPiece r)
  rw [hpiece, List.length_append, Reader.consumed, Reader.consumed, List.length_reverse,
    List.length_reverse] at hbehind
  rw [advance_of_token hend ht, before, List.length_reverse, List.length_drop, text]
  dsimp only [Option.map_some, Option.getD_some]
  rw [text_relabel, hbehind]
  exact Nat.add_sub_cancel _ _

/-- A token that is handed out stands where its lexeme stands in the source. -/
theorem Reached.lexeme {source : Text} {s : Scanner} (h : Reached source s) (hend : s.atEnd = false)
    (ht : s.reader.readToken.1.isEnd = false) :
    Reads s.count source (source.drop s.advance.before.length) ∧
      ∃ width, Lexeme.ofText? (source.drop s.advance.before.length) =
        some ⟨.token s.reader.readToken.1.kind, width⟩ := by
  obtain ⟨r, hsource, hreads, hne, hpiece⟩ := h.next ht
  rw [length_before_advance hend ht hpiece, ← hsource, Reader.drop_source]
  exact ⟨hsource.symm ▸ hreads, Reader.lexeme_of_readPiece hne (congrArg Prod.fst hpiece)⟩

/-- A scanner whose count is the index of the token that it reads labels the openers. -/
theorem Reached.readKind_eq_genericLt_iff {source : Text} {s : Scanner} (h : Reached source s)
    (hend : s.atEnd = false) (ht : s.reader.readToken.1.isEnd = false)
    (hstep : source.tokenOffsets[s.count]? = some s.advance.before.length) :
    s.readKind.1 = .genericLt ↔ source.HasOpenerAt s.advance.before.length := by
  rw [Scanner.readKind_eq_genericLt_iff hend ht, h.openers]
  constructor
  · rintro ⟨-, hcount⟩
    exact ⟨s.count, hcount, hstep⟩
  · rintro ⟨k, hk, hoffset⟩
    obtain rfl := Text.tokenOffsets_inj hoffset hstep
    -- both readings find the same lexeme at the offset, and the first one found a comparison
    obtain ⟨m, kind, width, hm, hlexeme, hkind⟩ := Reader.lexeme_of_tokenOffsets hstep
    obtain ⟨-, width', hlexeme'⟩ := h.lexeme hend ht
    rw [hm, Nat.zero_add] at hlexeme'
    have hsame := Option.some.inj (hlexeme'.symm.trans hlexeme)
    obtain ⟨t, htoken, htkind⟩ := Option.map_eq_some_iff.1 hkind
    have hlt := kind_of_mem_openers hk htoken
    refine ⟨?_, hk⟩
    rw [← hlt, htkind]
    exact Category.token.inj (congrArg Lexeme.category hsame)

/-- **When labels stay on openers.** Tokens and raw characters may be asked for in any order. A
source keeps every label on an opener, in all such sessions, if and only if it has no other
comparison that can be reached with as many tokens read as an opener has before it, whatever
characters are skipped. And in each single session, as long as the count is the index of the token
that is read, the label is given to the openers and to nothing else. -/
theorem labels_on_openers_iff (source : Text) :
    ((∀ qs : List Request, (∀ q ∈ qs, q = .kind ∨ q = .token? ∨ q = .char?) →
        ((ofText source).run qs).2.readKind.1 = .genericLt →
          source.HasOpenerAt ((ofText source).run qs).2.readKind.2.before.length) ↔
      ∀ k ∈ GenericCall.openers source.kinds, ∀ o, Reads k source (source.drop o) →
        (∃ width, Lexeme.ofText? (source.drop o) = some ⟨.token (.symbol .lt), width⟩) →
          source.HasOpenerAt o) ∧
    ∀ qs : List Request, (∀ q ∈ qs, q = .kind ∨ q = .token? ∨ q = .char?) →
      ((ofText source).run qs).2.readKind.1 ≠ .endOfInput →
        source.tokenOffsets[((ofText source).run qs).2.count]? =
          some ((ofText source).run qs).2.readKind.2.before.length →
        (((ofText source).run qs).2.readKind.1 = .genericLt ↔
          source.HasOpenerAt ((ofText source).run qs).2.readKind.2.before.length) := by
  refine ⟨⟨?_, ?_⟩, ?_⟩
  · -- a session that reads and skips as the source allows
    rintro hall k hk o hreads ⟨width, hlexeme⟩
    obtain ⟨qs, hqs, hahead, hcount, hend⟩ :=
      exists_run_of_reads hreads (s := ofText source) rfl rfl
    have hs := (Reached.start source).of_run hqs
    rw [← hahead] at hlexeme
    obtain ⟨hpiece, hkind, -⟩ := Reader.readToken_of_lexeme hlexeme
    have ht := Reader.isEnd_readToken_of_lexeme hlexeme
    have hmem : ((ofText source).run qs).2.count ∈ ((ofText source).run qs).2.openers := by
      rw [hcount, hs.openers]
      exact (Nat.zero_add k).symm ▸ hk
    have hopener := hall qs hqs ((readKind_eq_genericLt_iff hend ht).2 ⟨hkind, hmem⟩)
    have hoffset := hs.length_behind hahead (Lexeme.ne_nil_of_ofText? hlexeme)
    rw [← hoffset, ← length_before_advance hend ht hpiece]
    exact hopener
  · intro hsource qs hqs hlabel
    have hs := (Reached.start source).of_run hqs
    obtain ⟨hend, ht⟩ := isEnd_of_readKind_ne_endOfInput (by rw [hlabel]; exact Kind.noConfusion)
    obtain ⟨hkind, hcount⟩ := (readKind_eq_genericLt_iff hend ht).1 hlabel
    obtain ⟨hreads, hlexeme⟩ := hs.lexeme hend ht
    exact hsource _ (hs.openers ▸ hcount) _ hreads (hkind ▸ hlexeme)
  · intro qs hqs htoken hstep
    have hs := (Reached.start source).of_run hqs
    obtain ⟨hend, ht⟩ := isEnd_of_readKind_ne_endOfInput htoken
    exact hs.readKind_eq_genericLt_iff hend ht hstep

/-- Not every source does. In `<>(<` the first `<` is an opener with no token before it. If its
characters are taken one by one, no token is read before the last `<` either, which gets the
label. -/
theorem label_off_openers :
    ¬ ∀ (source : Text) (qs : List Request), (∀ q ∈ qs, q = .kind ∨ q = .token? ∨ q = .char?) →
      ((ofText source).run qs).2.readKind.1 = .genericLt →
        source.HasOpenerAt ((ofText source).run qs).2.readKind.2.before.length := by
  intro h
  have hopener := h "<>(<".toList [.char?, .char?, .char?] (by decide) (by decide +kernel)
  exact absurd hopener (by decide +kernel)

end Scanner

end AngleLexer
