import AngleLexer.Proofs.Checked.Lexeme
import AngleLexer.Proofs.Reader.Tokens

/-!
# A reader that counts bytes

A `ByteReader` keeps the whole source and the place it has come to as a number of bytes. The text behind
the place and the text ahead of it are cut out of the source when they are needed, and so is the text of
a piece. Every cut is checked: a function whose name ends in a question mark has no result if a text was
to be cut inside a character or behind its end.

That never happens. A `Reader` has a counterpart that counts bytes (`Reader.inBytes`), and whatever is
asked of the counterpart, it answers like the reader and goes on as the counterpart of the reader that
goes on (`Reader.serve?_inBytes`, `Reader.run?_inBytes`). Its place is always one of the source
(`Reader.fits_inBytes`).
-/

namespace AngleLexer

/-- A place in a source text, in bytes, with the comments met on the way to it. -/
structure ByteReader where
  /-- the whole source -/
  input : Text
  /-- the bytes that were read -/
  offset : Nat
  /-- the place in lines and columns -/
  position : Position
  /-- the comments met so far, in order, without those that were handed out -/
  comments : List Comment

/-- The piece of a category with a text and a span. -/
def Category.piece (text : Text) (span : Span) : Category → Piece
  | .trivia kind => .trivia ⟨kind, text, span⟩
  | .token kind => .token ⟨kind, text, span⟩

namespace ByteReader

variable (reach : Text → Nat)

/-- The reader at the start of a source. -/
def ofText (source : Text) : ByteReader := ⟨source, 0, .start, []⟩

/-- The text that was read. -/
def consumed? (r : ByteReader) : Option Text := Text.slice? r.input 0 r.offset

/-- The text that is still to be read. -/
def ahead? (r : ByteReader) : Option Text := Text.sliceFrom? r.input r.offset

/-- Take some bytes off the text ahead. -/
def take? (r : ByteReader) (len : Nat) : Option (Text × ByteReader) := do
  let text ← Text.slice? r.input r.offset (r.offset + len)
  return (text, { r with offset := r.offset + len, position := r.position.after text })

/-- Read one piece. -/
def readPiece? (r : ByteReader) : Option (Piece × ByteReader) := do
  match ← r.ahead? with
  | [] => return (.token ⟨.endOfInput, [], .emptyAt r.position⟩, r)
  | c :: rest =>
    let (category, len) ← Checked.first? reach c rest
    let (text, onward) ← r.take? len
    let p := category.piece text ⟨r.position, onward.position⟩
    return (p, { onward with comments := onward.comments ++ p.comment?.toList })

/-! ## Reading gets on -/

/-- The second of two readers has read on in the source of the first. -/
structure Later (r r' : ByteReader) : Prop where
  /-- the source is the same -/
  input_eq : r'.input = r.input
  /-- something was read -/
  lt : r.offset < r'.offset
  /-- but not more than there is -/
  le : r'.offset ≤ r'.input.utf8Length

/-- The bytes that are still to be read. -/
def bytesLeft (r : ByteReader) : Nat := r.input.utf8Length - r.offset

theorem Later.trans {r r' r'' : ByteReader} (h : Later r r') (h' : Later r' r'') : Later r r'' where
  input_eq := h'.input_eq.trans h.input_eq
  lt := Nat.lt_trans h.lt h'.lt
  le := h'.le

theorem Later.bytesLeft_lt {r r' : ByteReader} (h : Later r r') : r'.bytesLeft < r.bytesLeft := by
  have hlt := h.lt
  have hle := h.le
  rw [bytesLeft, bytesLeft, ← h.input_eq]
  omega

theorem later_of_take? {r onward : ByteReader} {len : Nat} {t : Text} (h : r.take? len = some (t, onward))
    (hlen : 0 < len) : Later r onward := by
  obtain ⟨text, hslice, heq⟩ := Option.bind_eq_some_iff.1 h
  obtain ⟨⟨front, behind⟩, hcut, -⟩ := Option.bind_eq_some_iff.1 hslice
  obtain ⟨hinput, hlength⟩ := Text.eq_append_of_cut? hcut
  obtain ⟨-, rfl⟩ := Prod.mk.inj (Option.some.inj heq)
  refine ⟨rfl, Nat.lt_add_of_pos_right hlen, ?_⟩
  rw [hinput, Text.utf8Length_append]
  exact hlength ▸ Nat.le_add_right _ _

/-- A call reads on, or it returns the end of the input. -/
theorem later_of_readPiece? {r onward : ByteReader} {p : Piece} (h : r.readPiece? reach = some (p, onward)) :
    (∃ t, p = .token t ∧ t.isEnd = true) ∨ Later r onward := by
  obtain ⟨ahead, -, hstep⟩ := Option.bind_eq_some_iff.1 h
  rcases ahead with _ | ⟨c, rest⟩
  · obtain ⟨rfl, -⟩ := Prod.mk.inj (Option.some.inj hstep)
    exact Or.inl ⟨_, rfl, rfl⟩
  · obtain ⟨⟨category, len⟩, hfirst, hcut⟩ := Option.bind_eq_some_iff.1 hstep
    obtain ⟨⟨text, reader⟩, htake, hresult⟩ := Option.bind_eq_some_iff.1 hcut
    obtain ⟨-, hreader⟩ := Prod.mk.inj (Option.some.inj hresult)
    obtain ⟨_, _, hfits, hpos, -⟩ := Checked.first?_fits reach c rest
    obtain ⟨-, rfl⟩ := Prod.mk.inj (Option.some.inj (hfits.symm.trans hfirst))
    have hlater := later_of_take? htake hpos
    exact Or.inr (hreader ▸ ⟨hlater.input_eq, hlater.lt, hlater.le⟩)

/-! ## Reading on -/

/-- Read pieces until one is a token. -/
def readToken? (r : ByteReader) : Option (Token × ByteReader) :=
  match _h : r.readPiece? reach with
  | none => none
  | some (.token t, onward) => some (t, onward)
  | some (.trivia _, onward) => onward.readToken?
termination_by r.bytesLeft
decreasing_by
  rcases later_of_readPiece? reach _h with ⟨t, ht, -⟩ | hlater
  · cases ht
  · exact hlater.bytesLeft_lt

theorem readToken?_of_token {r onward : ByteReader} {t : Token}
    (h : r.readPiece? reach = some (.token t, onward)) : r.readToken? reach = some (t, onward) := by
  rw [readToken?]
  split <;> simp_all

theorem readToken?_of_trivia {r onward : ByteReader} {t : Trivia}
    (h : r.readPiece? reach = some (.trivia t, onward)) : r.readToken? reach = onward.readToken? reach := by
  rw [readToken?]
  split <;> simp_all

/-- A token that is not the end of the input was read on the way. -/
theorem later_of_readToken? {r onward : ByteReader} {t : Token} (h : r.readToken? reach = some (t, onward)) :
    t.isEnd = true ∨ Later r onward := by
  fun_induction readToken? reach r with
  | case1 r hr => cases h
  | case2 r u reader hr =>
    obtain ⟨rfl, rfl⟩ := Prod.mk.inj (Option.some.inj h)
    rcases later_of_readPiece? reach hr with ⟨u', hu', hend⟩ | hlater
    · exact Or.inl (Piece.token.inj hu' ▸ hend)
    · exact Or.inr hlater
  | case3 r u reader hr ih =>
    rcases later_of_readPiece? reach hr with ⟨u', hu', -⟩ | hlater
    · cases hu'
    · exact (ih h).imp_right hlater.trans

/-- Read tokens until one is the end of the input. -/
def tokens? (r : ByteReader) : Option (List Token × ByteReader) :=
  match _h : r.readToken? reach with
  | none => none
  | some (t, onward) =>
    if _hend : t.isEnd = true then some ([], onward)
    else onward.tokens?.map fun last => (t :: last.1, last.2)
termination_by r.bytesLeft
decreasing_by exact ((later_of_readToken? reach _h).resolve_left _hend).bytesLeft_lt

theorem tokens?_of_isEnd {r onward : ByteReader} {t : Token} (h : r.readToken? reach = some (t, onward))
    (hend : t.isEnd = true) : r.tokens? reach = some ([], onward) := by
  rw [tokens?]
  split <;> simp_all

theorem tokens?_of_readToken? {r onward : ByteReader} {t : Token} (h : r.readToken? reach = some (t, onward))
    (hend : t.isEnd = false) :
    r.tokens? reach = (onward.tokens? reach).map fun last => (t :: last.1, last.2) := by
  rw [tokens?]
  split <;> simp_all

/-- Read one character, whatever it belongs to. -/
def readChar? (r : ByteReader) : Option (Option Char × ByteReader) := do
  match ← r.ahead? with
  | [] => return (none, r)
  | c :: _ => return (some c,
      { r with offset := r.offset + c.utf8Size, position := r.position.advance c })

/-! ## Sessions -/

/-- The answer to a request, and the reader afterwards. -/
def serve? (r : ByteReader) : Reader.Request → Option (Reader.Reply × ByteReader)
  | .piece => (r.readPiece? reach).map (·.map .piece id)
  | .token => (r.readToken? reach).map (·.map .token id)
  | .token? => (r.readToken? reach).map (·.map (fun t => .token? (if t.isEnd then none else some t)) id)
  | .tokens => (r.tokens? reach).map (·.map .tokens id)
  | .comments => some (.comments r.comments, r)
  | .drain => some (.comments r.comments, { r with comments := [] })
  | .restart source => some (.done, ofText source)

/-- The answers to several requests in a row, and the reader afterwards. -/
def run? (r : ByteReader) : List Reader.Request → Option (List Reader.Reply × ByteReader)
  | [] => some ([], r)
  | q :: qs => do
    let (reply, onward) ← r.serve? reach q
    let (replies, last) ← onward.run? qs
    return (reply :: replies, last)

/-- The place of a reader is one of its source, and what is read next can be cut off there. -/
structure Fits (r : ByteReader) : Prop where
  /-- the place is not behind the end -/
  le : r.offset ≤ r.input.utf8Length
  /-- it is not inside a character -/
  boundary : r.input.IsBoundary r.offset
  /-- the text that was read can be cut out -/
  consumed : ∃ t, r.consumed? = some t
  /-- and so can the text ahead -/
  ahead : ∃ t, r.ahead? = some t
  /-- the length of what it starts with is known and positive, and the place behind that fits too -/
  lexeme : ∀ c rest, r.ahead? = some (c :: rest) →
    ∃ category len, Checked.first? reach c rest = some (category, len) ∧ 0 < len ∧
      len ≤ Text.utf8Length (c :: rest) ∧ Text.IsBoundary (c :: rest) len ∧
      r.input.IsBoundary (r.offset + len)
  /-- a number that it starts with is read without asking for bytes that are not there -/
  number : ∀ c rest, r.ahead? = some (c :: rest) → isDecimalDigit c = true →
    ∃ len, Checked.number? (c :: rest) = some len ∧ 0 < len

end ByteReader

namespace Reader

/-- The same place, counted in bytes. -/
def inBytes (r : Reader) : ByteReader := ⟨r.source, r.consumed.utf8Length, r.position, r.comments⟩

variable (reach : Text → Nat) (r : Reader)

/-! ## Cuts -/

theorem consumed?_inBytes : r.inBytes.consumed? = some r.consumed :=
  Text.slice?_append [] r.consumed r.ahead

theorem ahead?_inBytes : r.inBytes.ahead? = some r.ahead :=
  Text.sliceFrom?_append r.consumed r.ahead

/-- What the reader takes in characters is taken in bytes. -/
theorem take?_inBytes (n : Nat) :
    r.inBytes.take? (Text.utf8Length (r.ahead.take n)) = some (r.ahead.take n, (r.skip n).inBytes) := by
  have hsource : r.source = r.consumed ++ r.ahead.take n ++ r.ahead.drop n := by
    rw [List.append_assoc, List.take_append_drop]
    rfl
  have hslice := Text.slice?_append r.consumed (r.ahead.take n) (r.ahead.drop n)
  rw [← hsource, Text.utf8Length_append] at hslice
  rw [ByteReader.take?, inBytes, hslice, Option.bind_eq_bind, Option.bind_some, inBytes, source_skip,
    consumed_skip, Text.utf8Length_append]
  rfl

/-! ## The same answers -/

theorem readPiece?_inBytes : r.inBytes.readPiece? reach = some (r.readPiece.1, r.readPiece.2.inBytes) := by
  rw [ByteReader.readPiece?, ahead?_inBytes, Option.bind_eq_bind, Option.bind_some]
  rcases hahead : r.ahead with _ | ⟨c, rest⟩
  · rw [readPiece_of_ahead_eq_nil hahead]
    rfl
  · have hlexeme : Lexeme.ofText? r.ahead = some (Lexeme.first c rest) := by
      rw [hahead]
      rfl
    have htake := take?_inBytes r (Lexeme.first c rest).width
    rw [hahead] at htake
    have hpiece : r.piece (Lexeme.first c rest) =
        (Lexeme.first c rest).category.piece ((c :: rest).take (Lexeme.first c rest).width)
          ⟨r.position, (r.skip (Lexeme.first c rest).width).position⟩ := by
      rw [piece, skip, hahead]
      rcases (Lexeme.first c rest).category with _ | _ <;> rfl
    rw [readPiece_of_ofText? hlexeme, hpiece]
    dsimp only
    rw [Checked.first?_eq, Checked.measured, Option.bind_eq_bind, Option.bind_some, Option.bind_eq_bind, htake,
      Option.bind_some]
    rfl

theorem readToken?_inBytes : r.inBytes.readToken? reach = some (r.readToken.1, r.readToken.2.inBytes) := by
  fun_induction readToken r with
  | case1 r hr =>
    have hstep := readPiece?_inBytes reach r
    rw [readPiece_of_ahead_eq_nil hr] at hstep
    exact ByteReader.readToken?_of_token reach hstep
  | case2 r hr step t ht =>
    have hstep := readPiece?_inBytes reach r
    rw [ht] at hstep
    exact ByteReader.readToken?_of_token reach hstep
  | case3 r hr step t ht ih =>
    have hstep := readPiece?_inBytes reach r
    rw [ht] at hstep
    exact (ByteReader.readToken?_of_trivia reach hstep).trans ih

theorem tokens?_inBytes (r : Reader) : r.inBytes.tokens? reach = some (r.tokens.1, r.tokens.2.inBytes) := by
  have hstep := readToken?_inBytes reach r
  rcases hend : r.readToken.1.isEnd with _ | _
  · have hne : r.ahead ≠ [] := by
      intro hnil
      rw [readToken_of_ahead_eq_nil hnil] at hend
      cases hend
    have hlength := length_ahead_readToken hne
    rw [tokens_of_readToken hend, ByteReader.tokens?_of_readToken? reach hstep hend,
      tokens?_inBytes r.readToken.2]
    rfl
  · rw [(tokens_of_isEnd hend).1]
    exact ByteReader.tokens?_of_isEnd reach hstep hend
termination_by r.ahead.length

theorem readChar?_inBytes : r.inBytes.readChar? =
    some (r.readChar?.map Prod.fst, ((r.readChar?.map Prod.snd).getD r).inBytes) := by
  rw [ByteReader.readChar?, ahead?_inBytes, Option.bind_eq_bind, Option.bind_some, readChar?]
  rcases hahead : r.ahead with _ | ⟨c, rest⟩
  · rfl
  · have hlength : (r.skip 1).consumed.utf8Length = r.consumed.utf8Length + c.utf8Size := by
      rw [consumed_skip, hahead, Text.utf8Length_append]
      rfl
    have hposition : (r.skip 1).position = r.position.advance c := by
      rw [skip, hahead]
      rfl
    rw [Option.map_some, Option.map_some, Option.getD_some, inBytes, inBytes, source_skip, hlength, hposition]
    rfl

/-- **One request** is answered alike, and both readers stay at the same place. -/
theorem serve?_inBytes (q : Request) :
    r.inBytes.serve? reach q = some ((r.serve q).1, (r.serve q).2.inBytes) := by
  cases q with
  | piece =>
    rw [ByteReader.serve?, readPiece?_inBytes]
    rfl
  | token =>
    rw [ByteReader.serve?, readToken?_inBytes]
    rfl
  | token? =>
    rw [ByteReader.serve?, readToken?_inBytes]
    rfl
  | tokens =>
    rw [ByteReader.serve?, tokens?_inBytes]
    rfl
  | comments => rfl
  | drain => rfl
  | restart source => rfl

/-- **A session** is answered alike. -/
theorem run?_inBytes (qs : List Request) :
    r.inBytes.run? reach qs = some ((r.run qs).1, (r.run qs).2.inBytes) := by
  induction qs generalizing r with
  | nil => rfl
  | cons q qs ih =>
    rw [ByteReader.run?, serve?_inBytes, Option.bind_eq_bind, Option.bind_some]
    dsimp only
    rw [ih, Option.bind_eq_bind, Option.bind_some]
    rfl

/-- **The place of a reader fits**, wherever it is. -/
theorem fits_inBytes : r.inBytes.Fits reach where
  le := Text.utf8Length_le_of_prefix (List.prefix_append _ _)
  boundary := Text.isBoundary_of_isPrefix (List.prefix_append _ _)
  consumed := ⟨_, r.consumed?_inBytes⟩
  ahead := ⟨_, r.ahead?_inBytes⟩
  lexeme := by
    intro c rest h
    have hahead : r.ahead = c :: rest := Option.some.inj (r.ahead?_inBytes.symm.trans h)
    obtain ⟨category, len, hfirst, hpos, hle, hboundary⟩ := Checked.first?_fits reach c rest
    refine ⟨category, len, hfirst, hpos, hle, hboundary, ?_⟩
    obtain ⟨t, ht, rfl⟩ := Text.isBoundary_iff.1 hboundary
    have hprefix : r.consumed ++ t <+: r.source := (List.prefix_append_right_inj _).2 (hahead ▸ ht)
    exact Text.utf8Length_append _ _ ▸ Text.isBoundary_of_isPrefix hprefix
  number := by
    intro c rest _ hc
    exact ⟨_, Checked.number?_eq hc rest, Text.utf8Length_take_pos (Lexeme.number_pos hc) c rest⟩

end Reader

end AngleLexer
