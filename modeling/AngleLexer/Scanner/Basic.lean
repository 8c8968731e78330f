import AngleLexer.GenericCall
import AngleLexer.Reader.Basic

/-!
# The scanner

A `Scanner` reads tokens for a parser. It differs from a bare `Reader` in three ways.

* **Generic calls.** Before the first token is asked for, the kinds of all tokens of the source are
  known, and the openers of generic calls among them are marked by index (`GenericCall.openers`).
  While the tokens are read they are counted, and an `<` whose count is a marked index becomes a
  `genericLt`.
* **The current token.** The token read last stays available with its place and its index.
* **Raw characters.** A parser may take single characters off the input (`Scanner.readChar?`). They
  become part of the current token, whatever they are; if there is none yet, they make an invalid
  one. A raw character is not a token, so it is not counted.

The end of the input, once it was read, is final: only another source makes the scanner go on.
-/

namespace AngleLexer

/-- A reader of tokens that knows the openers of generic calls and its current token. -/
structure Scanner where
  /-- where the scanner stands in the source -/
  reader : Reader
  /-- the indices of the tokens that open type arguments, in increasing order -/
  openers : List Nat
  /-- how many tokens were read -/
  count : Nat
  /-- the token read last -/
  current : Option Token
deriving DecidableEq

namespace Scanner

/-- The scanner at the start of a source. -/
def ofText (source : Text) : Scanner :=
  ⟨.ofText source, GenericCall.openers source.kinds, 0, none⟩

/-! ## What can be seen -/

/-- Whether the end of the input was read. -/
def atEnd (s : Scanner) : Bool := s.current.any Token.isEnd

/-- The text of the current token. -/
def text (s : Scanner) : Text := (s.current.map Token.text).getD []

/-- The place of the current token, or the start of the source before the first one. -/
def span (s : Scanner) : Span := (s.current.map Token.span).getD (.emptyAt .start)

/-- The number of tokens that were read before the current one. There is none before the first
token was read, and none at the end of the input. -/
def index? (s : Scanner) : Option Nat :=
  if s.atEnd then none
  else
    match s.count with
    | 0 => none
    | n + 1 => some n

/-- The comments met so far. -/
def comments (s : Scanner) : List Comment := s.reader.comments

/-! ## Reading -/

/-- A token as a parser sees it: the `<` at a marked index opens type arguments. -/
def relabel (s : Scanner) (t : Token) : Token :=
  if t.kind = .symbol .lt ∧ s.count ∈ s.openers then { t with kind := .genericLt } else t

/-- Make the token read by the reader the current one. The end-of-input token is not counted. -/
def accept (s : Scanner) (t : Token) (reader : Reader) : Scanner :=
  if t.isEnd then { s with reader := reader, current := some t }
  else { s with reader := reader, count := s.count + 1, current := some (s.relabel t) }

/-- Read the next token; at the end of the input, stay there. -/
def advance (s : Scanner) : Scanner :=
  if s.atEnd then s
  else
    let step := s.reader.readToken
    s.accept step.1 step.2

/-- The kind of the next token. -/
def readKind (s : Scanner) : Kind × Scanner :=
  let onward := s.advance
  ((onward.current.map Token.kind).getD .endOfInput, onward)

/-- The next token, if the source has another one. -/
def readToken? (s : Scanner) : Option Token × Scanner :=
  let onward := s.advance
  (if onward.atEnd then none else onward.current, onward)

/-- A token that is not the end of the input was read from text that lay ahead. -/
theorem length_ahead_readToken? {s : Scanner} {t : Token} (h : s.readToken?.1 = some t) :
    s.readToken?.2.reader.ahead.length < s.reader.ahead.length := by
  simp only [readToken?, advance] at h ⊢
  split at h
  · simp_all
  · rename_i hend
    rw [if_neg hend]
    by_cases hr : s.reader.ahead = []
    · simp [Reader.readToken_of_ahead_eq_nil hr, accept, Reader.endToken, Token.isEnd, atEnd]
        at h
    · have hlen := Reader.length_ahead_readToken hr
      unfold accept
      split <;> exact hlen

/-- All tokens from here to the end of the source, and the scanner at the end. -/
def tokens (s : Scanner) : List Token × Scanner :=
  let step := s.readToken?
  match _h : step.1 with
  | none => ([], step.2)
  | some t =>
    let onward := step.2.tokens
    (t :: onward.1, onward.2)
termination_by s.reader.ahead.length
decreasing_by exact length_ahead_readToken? _h

theorem tokens_of_readToken?_eq_none {s : Scanner} (h : s.readToken?.1 = none) :
    s.tokens = ([], s.readToken?.2) := by
  rw [tokens]
  split
  · rfl
  · simp_all

theorem tokens_of_readToken?_eq_some {s : Scanner} {t : Token} (h : s.readToken?.1 = some t) :
    s.tokens = (t :: s.readToken?.2.tokens.1, s.readToken?.2.tokens.2) := by
  rw [tokens]
  split <;> simp_all

/-! ## Raw characters -/

/-- The current token with one more character, which ends at `last`. -/
def extend (s : Scanner) (c : Char) (last : Position) : Token :=
  match s.current with
  | some t => { t with text := t.text ++ [c], span := { t.span with last := last } }
  | none => ⟨.invalid, [c], ⟨.start, last⟩⟩

/-- Take one character off the input and make it part of the current token. -/
def readChar? (s : Scanner) : Option Char × Scanner :=
  match s.reader.readChar? with
  | none => (none, s)
  | some (c, reader) =>
    (some c, { s with reader := reader, current := some (s.extend c reader.position) })

end Scanner

end AngleLexer
