import AngleLexer.Proofs.Checked.Reader
import AngleLexer.Proofs.Scanner.Coherence
import AngleLexer.Scanner.Context

/-!
# A scanner that counts bytes

A `ByteScanner` reads its source twice through a `ByteReader`, once to find the openers of generic calls
and once to hand out tokens. It keeps the source for itself and remembers where the current token begins
as a number of bytes: as many before the place of its reader as the text of the token has. From these two
places it cuts the text of a token that raw characters were added to, and the context that a message
shows. To look for the beginning of a token before the beginning of the source is an error like a cut
inside a character.

A coherent scanner has a counterpart in bytes (`Scanner.inBytes`), and there is no request on which they
come apart (`Scanner.Coherent.serve?_inBytes`). The result is that no cut fails in any session with a
reader or a scanner (`Scanner.cuts_succeed`).
-/

namespace AngleLexer

/-- A scanner whose places in the source are numbers of bytes. -/
structure ByteScanner where
  /-- the whole source -/
  source : Text
  /-- the reader of the source -/
  reader : ByteReader
  /-- the indices of the tokens that open type arguments -/
  openers : List Nat
  /-- how many tokens were read -/
  count : Nat
  /-- the token read last -/
  current : Option Token
  /-- the bytes before the current token -/
  start : Nat

namespace ByteScanner

variable (reach : Text → Nat)

/-- The scanner at the start of a source. -/
def ofText? (source : Text) : Option ByteScanner := do
  let (ts, _) ← (ByteReader.ofText source).tokens? reach
  return ⟨source, .ofText source, GenericCall.openers (ts.map Token.kind), 0, none, 0⟩

/-- A token as a parser sees it. -/
def relabel (s : ByteScanner) (t : Token) : Token :=
  if t.kind = .symbol .lt ∧ s.count ∈ s.openers then { t with kind := .genericLt } else t

/-- Make a token the current one. Its text ends where the reader stands, and begins as many bytes before. -/
def accept? (s : ByteScanner) (t : Token) (reader : ByteReader) : Option ByteScanner :=
  if reader.offset < t.text.utf8Length then none
  else
    let start := reader.offset - t.text.utf8Length
    if t.isEnd then some { s with reader := reader, current := some t, start := start }
    else some { s with
      reader := reader, count := s.count + 1, current := some (s.relabel t), start := start }

/-- Read the next token; at the end of the input, stay there. -/
def advance? (s : ByteScanner) : Option ByteScanner :=
  if s.current.any Token.isEnd then some s
  else do
    let (t, reader) ← s.reader.readToken? reach
    s.accept? t reader

/-- The kind of the next token. -/
def readKind? (s : ByteScanner) : Option (Kind × ByteScanner) := do
  let onward ← s.advance? reach
  return ((onward.current.map Token.kind).getD .endOfInput, onward)

/-- The next token, if the source has another one. -/
def readToken? (s : ByteScanner) : Option (Option Token × ByteScanner) := do
  let onward ← s.advance? reach
  return (if onward.current.any Token.isEnd then none else onward.current, onward)

/-- A token that is not the end of the input was read by the reader. -/
theorem later_of_readToken? {s onward : ByteScanner} {t : Token}
    (h : s.readToken? reach = some (some t, onward)) : s.reader.Later onward.reader := by
  obtain ⟨next, hadvance, hresult⟩ := Option.bind_eq_some_iff.1 h
  obtain ⟨htoken, rfl⟩ := Prod.mk.inj (Option.some.inj hresult)
  have hend : ¬ next.current.any Token.isEnd = true := by
    intro hend
    rw [if_pos hend] at htoken
    cases htoken
  rw [advance?] at hadvance
  split at hadvance
  · rename_i hs
    obtain rfl := Option.some.inj hadvance
    exact absurd hs hend
  · obtain ⟨⟨u, reader⟩, hread, haccept⟩ := Option.bind_eq_some_iff.1 hadvance
    dsimp only [accept?] at haccept
    split at haccept
    · cases haccept
    split at haccept
    · rename_i hu
      obtain rfl := Option.some.inj haccept
      exact absurd hu hend
    · rename_i hu
      obtain rfl := Option.some.inj haccept
      exact (ByteReader.later_of_readToken? reach hread).resolve_left hu

/-- All tokens from here to the end of the source. -/
def tokens? (s : ByteScanner) : Option (List Token × ByteScanner) :=
  match _h : s.readToken? reach with
  | none => none
  | some (none, onward) => some ([], onward)
  | some (some t, onward) => onward.tokens?.map fun last => (t :: last.1, last.2)
termination_by s.reader.bytesLeft
decreasing_by exact (later_of_readToken? reach _h).bytesLeft_lt

theorem tokens?_of_none {s onward : ByteScanner} (h : s.readToken? reach = some (none, onward)) :
    s.tokens? reach = some ([], onward) := by
  rw [tokens?]
  split <;> simp_all

theorem tokens?_of_some {s onward : ByteScanner} {t : Token} (h : s.readToken? reach = some (some t, onward)) :
    s.tokens? reach = (onward.tokens? reach).map fun last => (t :: last.1, last.2) := by
  rw [tokens?]
  split <;> simp_all

/-- The current token with another text, which ends at `last`. -/
def extend (s : ByteScanner) (text : Text) (last : Position) : Token :=
  match s.current with
  | some t => { t with text := text, span := { t.span with last := last } }
  | none => ⟨.invalid, text, ⟨.start, last⟩⟩

/-- Take one character off the input, and cut the text of the current token anew. -/
def readChar? (s : ByteScanner) : Option (Option Char × ByteScanner) := do
  let (c?, reader) ← s.reader.readChar?
  match c? with
  | none => return (none, s)
  | some c =>
    let text ← Text.slice? s.source s.start reader.offset
    return (some c, { s with reader := reader, current := some (s.extend text reader.position) })

/-- The text before the current token, as a message shows it. -/
def leftContext? (s : ByteScanner) : Option Text :=
  (Text.slice? s.source 0 s.start).map fun t => Scanner.keepEnd t.collapse

/-- The text from the current token on, as a message shows it. -/
def rightContext? (s : ByteScanner) : Option Text :=
  (Text.sliceFrom? s.source s.start).map fun t => Scanner.keepStart t.collapse

/-- The answer to a request, and the scanner afterwards. -/
def serve? (s : ByteScanner) : Scanner.Request → Option (Scanner.Reply × ByteScanner)
  | .kind => (s.readKind? reach).map (·.map .kind id)
  | .token? => (s.readToken? reach).map (·.map .token? id)
  | .tokens => (s.tokens? reach).map (·.map .tokens id)
  | .char? => s.readChar?.map (·.map .char? id)
  | .restart source => (ofText? reach source).map (.done, ·)

/-- The answers to several requests in a row, and the scanner afterwards. -/
def run? (s : ByteScanner) : List Scanner.Request → Option (List Scanner.Reply × ByteScanner)
  | [] => some ([], s)
  | q :: qs => do
    let (reply, onward) ← s.serve? reach q
    let (replies, last) ← onward.run? qs
    return (reply :: replies, last)

/-- The places of a scanner are places of its source, and both sides of the current token can be shown. -/
structure Fits (s : ByteScanner) : Prop where
  /-- the reader reads the source of the scanner -/
  source_eq : s.reader.input = s.source
  /-- its place fits -/
  reader : s.reader.Fits reach
  /-- the current token does not begin behind it -/
  start_le : s.start ≤ s.reader.offset
  /-- nor inside a character -/
  start_boundary : s.source.IsBoundary s.start
  /-- the text before the current token can be cut out -/
  left : ∃ t, s.leftContext? = some t
  /-- and so can the text from there on -/
  right : ∃ t, s.rightContext? = some t

end ByteScanner

namespace Scanner

/-- The same scanner, with its places counted in bytes. -/
def inBytes (s : Scanner) : ByteScanner :=
  ⟨s.reader.source, s.reader.inBytes, s.openers, s.count, s.current, s.before.utf8Length⟩

variable (reach : Text → Nat) {a : Account} {s : Scanner}

theorem ofText?_inBytes (source : Text) : ByteScanner.ofText? reach source = some (ofText source).inBytes := by
  rw [ByteScanner.ofText?]
  change ((Reader.ofText source).inBytes.tokens? reach >>= _) = _
  rw [Reader.tokens?_inBytes]
  rfl

/-- A token that was read begins as many bytes before the reader as its text has. -/
theorem Coherent.offset_eq (h : Coherent a s) :
    s.reader.inBytes.offset = s.before.utf8Length + s.text.utf8Length :=
  (congrArg Text.utf8Length h.consumed_eq).trans (Text.utf8Length_append _ _)

theorem reader_accept (s : Scanner) (t : Token) (reader : Reader) : (s.accept t reader).reader = reader := by
  rw [accept]
  split <;> rfl

theorem text_accept (s : Scanner) (t : Token) (reader : Reader) : (s.accept t reader).text = t.text := by
  rw [accept]
  split
  · rfl
  · exact text_relabel s t

theorem accept?_inBytes {v : Scanner} {t : Token} {reader : Reader} (hv : v = s.accept t reader)
    (hsource : reader.source = s.reader.source)
    (hoffset : reader.inBytes.offset = v.before.utf8Length + t.text.utf8Length) :
    s.inBytes.accept? t reader.inBytes = some v.inBytes := by
  subst hv
  have hstart : reader.inBytes.offset - t.text.utf8Length = (s.accept t reader).before.utf8Length := by
    rw [hoffset, Nat.add_sub_cancel]
  rw [ByteScanner.accept?, if_neg (by omega), hstart, accept]
  dsimp only
  rcases t.isEnd with _ | _
  · rw [if_neg Bool.false_ne_true, if_neg Bool.false_ne_true, inBytes, inBytes, hsource]
    rfl
  · rw [if_pos rfl, if_pos rfl, inBytes, inBytes, hsource]

theorem Coherent.advance?_inBytes (h : Coherent a s) : s.inBytes.advance? reach = some s.advance.inBytes := by
  change (if s.atEnd = true then _ else _) = _
  rcases hend : s.atEnd with _ | _
  · have hadvance : s.advance = s.accept s.reader.readToken.1 s.reader.readToken.2 := by
      rw [Scanner.advance, hend]
      rfl
    have htext : s.advance.text = s.reader.readToken.1.text := by
      rw [hadvance, text_accept]
    have hoffset := h.advance.offset_eq
    rw [htext, hadvance, reader_accept, ← hadvance] at hoffset
    rw [if_neg Bool.false_ne_true]
    change (s.reader.inBytes.readToken? reach >>= _) = _
    rw [Reader.readToken?_inBytes]
    exact accept?_inBytes hadvance (Reader.source_readToken _) hoffset
  · rw [if_pos rfl, advance_of_atEnd hend]

theorem Coherent.readKind?_inBytes (h : Coherent a s) :
    s.inBytes.readKind? reach = some (s.readKind.1, s.readKind.2.inBytes) := by
  rw [ByteScanner.readKind?, h.advance?_inBytes]
  rfl

theorem Coherent.readToken?_inBytes (h : Coherent a s) :
    s.inBytes.readToken? reach = some (s.readToken?.1, s.readToken?.2.inBytes) := by
  rw [ByteScanner.readToken?, h.advance?_inBytes]
  rfl

theorem Coherent.tokens?_inBytes (h : Coherent a s) :
    s.inBytes.tokens? reach = some (s.tokens.1, s.tokens.2.inBytes) := by
  induction s using tokens_induction generalizing a with
  | atEnd s hnone =>
    have hstep := h.readToken?_inBytes reach
    rw [hnone] at hstep
    rw [tokens_of_readToken?_eq_none hnone]
    exact ByteScanner.tokens?_of_none reach hstep
  | step s t hsome ih =>
    have hstep := h.readToken?_inBytes reach
    rw [hsome] at hstep
    have hrest := ih h.advance
    rw [tokens_of_readToken?_eq_some hsome, ByteScanner.tokens?_of_some reach hstep, hrest]
    rfl

/-- A raw character does not move the beginning of the current token, and is the last of its text. -/
theorem Coherent.consumed_skip (h : Coherent a s) {c : Char} {rest : Text} (hahead : s.reader.ahead = c :: rest) :
    s.readChar?.2.before = s.before ∧ (s.reader.skip 1).consumed = s.before ++ (s.text ++ [c]) := by
  have hconsumed := h.readChar?.consumed_eq
  have htext : s.readChar?.2.text = s.text ++ [c] := by
    rw [readChar?_of_ahead hahead]
    exact text_extend s c _
  have hskip : (s.reader.skip 1).consumed = s.before ++ (s.text ++ [c]) := by
    rw [Reader.consumed_skip, hahead, h.consumed_eq, List.append_assoc]
    rfl
  have hreader : s.readChar?.2.reader = s.reader.skip 1 := by rw [readChar?_of_ahead hahead]
  rw [htext, hreader, hskip] at hconsumed
  exact ⟨(List.append_cancel_right hconsumed).symm, hskip⟩

/-- A raw character is cut out of the source together with the text it is added to. -/
theorem Coherent.readChar?_inBytes (h : Coherent a s) :
    s.inBytes.readChar? = some (s.readChar?.1, s.readChar?.2.inBytes) := by
  rw [ByteScanner.readChar?]
  change (s.reader.inBytes.readChar? >>= _) = _
  rw [Reader.readChar?_inBytes, Option.bind_eq_bind, Option.bind_some, Reader.readChar?]
  rcases hahead : s.reader.ahead with _ | ⟨c, rest⟩
  · rw [Scanner.readChar?, Reader.readChar?, hahead]
    rfl
  obtain ⟨hbefore, hskip⟩ := h.consumed_skip hahead
  have hslice : Text.slice? s.reader.source s.before.utf8Length (s.reader.skip 1).inBytes.offset =
      some (s.text ++ [c]) := by
    have hsource : s.reader.source = s.before ++ (s.text ++ [c]) ++ rest := by
      rw [Reader.source, h.consumed_eq, hahead]
      simp only [List.append_assoc, List.singleton_append]
    rw [hsource, Reader.inBytes, hskip]
    exact Text.slice?_append _ _ _
  have htoken (last : Position) : s.inBytes.extend (s.text ++ [c]) last = s.extend c last := by
    rw [ByteScanner.extend, extend, text, inBytes]
    rcases s.current with _ | t <;> rfl
  dsimp only [Option.map_some, Option.getD_some]
  change (Text.slice? s.reader.source s.before.utf8Length (s.reader.skip 1).inBytes.offset >>= _) = _
  rw [hslice, Option.bind_eq_bind, Option.bind_some, htoken]
  rw [readChar?_of_ahead hahead] at hbefore ⊢
  dsimp only at hbefore ⊢
  rw [inBytes, inBytes, hbefore, Reader.source_skip]
  rfl

/-- **One request** is answered alike, and both scanners stay at the same places. -/
theorem Coherent.serve?_inBytes (h : Coherent a s) (q : Request) :
    s.inBytes.serve? reach q = some ((s.serve q).1, (s.serve q).2.inBytes) := by
  cases q with
  | kind =>
    rw [ByteScanner.serve?, h.readKind?_inBytes]
    rfl
  | token? =>
    rw [ByteScanner.serve?, h.readToken?_inBytes]
    rfl
  | tokens =>
    rw [ByteScanner.serve?, h.tokens?_inBytes]
    rfl
  | char? =>
    rw [ByteScanner.serve?, h.readChar?_inBytes]
    rfl
  | restart source =>
    rw [ByteScanner.serve?, ofText?_inBytes]
    rfl

/-- **A session** is answered alike. -/
theorem Coherent.run?_inBytes (h : Coherent a s) (qs : List Request) :
    s.inBytes.run? reach qs = some ((s.run qs).1, (s.run qs).2.inBytes) := by
  induction qs generalizing a s with
  | nil => rfl
  | cons q qs ih =>
    rw [ByteScanner.run?, h.serve?_inBytes, Option.bind_eq_bind, Option.bind_some]
    dsimp only
    rw [ih (h.serve q), Option.bind_eq_bind, Option.bind_some]
    rfl

/-! ## Fitting places -/

/-- The source lies before the current token and from there on. -/
theorem Coherent.source_eq_append (h : Coherent a s) : s.reader.source = s.before ++ s.onward := by
  rw [Reader.source, h.consumed_eq, List.append_assoc]
  rfl

theorem Coherent.leftContext?_inBytes (h : Coherent a s) : s.inBytes.leftContext? = some s.leftContext := by
  rw [ByteScanner.leftContext?, inBytes, h.source_eq_append]
  exact congrArg (Option.map _) (Text.slice?_append [] s.before s.onward)

theorem Coherent.rightContext?_inBytes (h : Coherent a s) : s.inBytes.rightContext? = some s.rightContext := by
  rw [ByteScanner.rightContext?, inBytes, h.source_eq_append]
  exact congrArg (Option.map _) (Text.sliceFrom?_append s.before s.onward)

/-- **The places of a coherent scanner fit.** -/
theorem Coherent.fits_inBytes (h : Coherent a s) : s.inBytes.Fits reach where
  source_eq := rfl
  reader := s.reader.fits_inBytes reach
  start_le := h.offset_eq ▸ Nat.le_add_right _ _
  start_boundary := Text.isBoundary_of_isPrefix (t := s.reader.source) ⟨s.onward, h.source_eq_append.symm⟩
  left := ⟨_, h.leftContext?_inBytes⟩
  right := ⟨_, h.rightContext?_inBytes⟩

/-- **No cut fails.** Whatever a reader or a scanner is asked for, and in whatever order, its counterpart
in bytes gives the same answers: no text is cut inside a character or behind its end, no byte of a number
is missing, and no token begins before the source. In every state that is reached the places are places
of the source, the current token begins no later than the reader stands, and what is read next has a
positive number of bytes that can be taken. -/
theorem cuts_succeed (reach : Text → Nat) :
    (∀ (source : Text) (qs : List Reader.Request), ∃ r : ByteReader,
      (ByteReader.ofText source).run? reach qs = some (((Reader.ofText source).run qs).1, r) ∧
      r.Fits reach) ∧
    ∀ (source : Text) (qs : List Request), ∃ s : ByteScanner,
      ((ByteScanner.ofText? reach source).bind fun s => s.run? reach qs) =
        some (((ofText source).run qs).1, s) ∧
      s.Fits reach := by
  constructor
  · intro source qs
    exact ⟨_, Reader.run?_inBytes reach (.ofText source) qs, Reader.fits_inBytes reach _⟩
  · intro source qs
    have h := Coherent.start source
    refine ⟨_, ?_, (h.run qs).fits_inBytes reach⟩
    rw [ofText?_inBytes, Option.bind_some]
    exact h.run?_inBytes reach qs

end Scanner

end AngleLexer
