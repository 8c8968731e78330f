import AngleLexer.Lexeme.Basic

/-!
# The reader

A `Reader` stands somewhere in a source text. It knows the text behind it, the text ahead of it,
the position between the two, and the comments it has met and not yet handed out. Reading a piece
moves the lexeme that `Lexeme.ofText?` finds from the one side to the other.

* `Reader.readPiece` reads one piece, trivia included. At the end of the source it returns the
  end-of-input token, again and again, and stays where it is.
* `Reader.readToken` skips trivia, and `Reader.readToken?` has no token to return at the end.
* `Reader.pieces` and `Reader.tokens` read to the end; both stop there by `Lexeme.width_pos`.

A comment is recorded when it is read as a piece, whichever function reads it.
-/

namespace AngleLexer

/-- A place in a source text, with the comments met on the way to it. -/
structure Reader where
  /-- the text that was read, its last character first -/
  behind : Text
  /-- the text that is still to be read -/
  ahead : Text
  /-- the place between the two -/
  position : Position
  /-- the comments met so far, in order, without those that were handed out -/
  comments : List Comment
deriving DecidableEq

namespace Reader

/-- The reader at the start of a source. -/
def ofText (source : Text) : Reader := ⟨[], source, .start, []⟩

/-- The text that was read. -/
def consumed (r : Reader) : Text := r.behind.reverse

/-- The whole text, read and unread. -/
def source (r : Reader) : Text := r.consumed ++ r.ahead

/-- Move over the first `n` characters ahead. -/
def skip (n : Nat) (r : Reader) : Reader :=
  let text := r.ahead.take n
  { r with
    behind := text.reverse ++ r.behind
    ahead := r.ahead.drop n
    position := r.position.after text }

@[simp] theorem consumed_skip (n : Nat) (r : Reader) :
    (r.skip n).consumed = r.consumed ++ r.ahead.take n := by
  simp [consumed, skip]

@[simp] theorem source_skip (n : Nat) (r : Reader) : (r.skip n).source = r.source := by
  simp only [source, consumed_skip, List.append_assoc]
  exact congrArg _ (List.take_append_drop n r.ahead)

/-! ## Pieces -/

/-- The piece that a lexeme makes of the text ahead. -/
def piece (r : Reader) (l : Lexeme) : Piece :=
  let text := r.ahead.take l.width
  let span := Span.ofText r.position text
  match l.category with
  | .trivia kind => .trivia ⟨kind, text, span⟩
  | .token kind => .token ⟨kind, text, span⟩

/-- The token that stands at the end of every source. -/
def endToken (r : Reader) : Token :=
  ⟨.endOfInput, [], .emptyAt r.position⟩

/-- Read one piece. -/
def readPiece (r : Reader) : Piece × Reader :=
  match Lexeme.ofText? r.ahead with
  | none => (.token r.endToken, r)
  | some l =>
    let p := r.piece l
    (p, { r.skip l.width with comments := r.comments ++ p.comment?.toList })

/-- Reading a piece leaves the source as it is. -/
@[simp] theorem source_readPiece (r : Reader) : r.readPiece.2.source = r.source := by
  unfold readPiece
  split
  · rfl
  · exact source_skip _ r

/-- Read one character, whatever it belongs to. -/
def readChar? (r : Reader) : Option (Char × Reader) :=
  match r.ahead with
  | [] => none
  | c :: _ => some (c, r.skip 1)

/-- Hand out the comments and forget them. -/
def drainComments (r : Reader) : List Comment × Reader :=
  (r.comments, { r with comments := [] })

/-- Reading a piece uses up some of the text ahead, unless there is none. -/
theorem length_ahead_readPiece {r : Reader} (h : r.ahead ≠ []) :
    r.readPiece.2.ahead.length < r.ahead.length := by
  have hpos := List.length_pos_iff.2 h
  unfold readPiece
  split
  · rename_i hl
    exact absurd (Lexeme.ofText?_eq_none_iff.1 hl) h
  · rename_i l hl
    have := Lexeme.width_pos hl
    simp only [skip, List.length_drop]
    omega

/-! ## Reading on -/

/-- All pieces from here to the end of the source, without the end-of-input token, and the reader
at the end. -/
def pieces (r : Reader) : List Piece × Reader :=
  if _h : r.ahead = [] then ([], r)
  else
    let step := r.readPiece
    let onward := step.2.pieces
    (step.1 :: onward.1, onward.2)
termination_by r.ahead.length
decreasing_by exact length_ahead_readPiece _h

/-- Read pieces until one is a token. -/
def readToken (r : Reader) : Token × Reader :=
  if _h : r.ahead = [] then (r.endToken, r)
  else
    let step := r.readPiece
    match step.1 with
    | .token t => (t, step.2)
    | .trivia _ => step.2.readToken
termination_by r.ahead.length
decreasing_by exact length_ahead_readPiece _h

theorem pieces_of_ahead_eq_nil {r : Reader} (h : r.ahead = []) : r.pieces = ([], r) := by
  rw [pieces, dif_pos h]

theorem pieces_of_ahead_ne_nil {r : Reader} (h : r.ahead ≠ []) :
    r.pieces = (r.readPiece.1 :: r.readPiece.2.pieces.1, r.readPiece.2.pieces.2) := by
  rw [pieces, dif_neg h]

/-- Where nothing is left to read, the next token is the end of the input. -/
theorem readToken_of_ahead_eq_nil {r : Reader} (h : r.ahead = []) :
    r.readToken = (r.endToken, r) := by
  rw [readToken, dif_pos h]

/-- Reading a token uses up some of the text ahead, unless there is none. -/
theorem length_ahead_readToken {r : Reader} (h : r.ahead ≠ []) :
    r.readToken.2.ahead.length < r.ahead.length := by
  fun_induction readToken r with
  | case1 r hr => exact absurd hr h
  | case2 r _ step t _ => exact length_ahead_readPiece h
  | case3 r _ step t _ ih =>
    have hstep := length_ahead_readPiece h
    by_cases hs : step.2.ahead = []
    · rw [readToken_of_ahead_eq_nil hs]
      exact hstep
    · exact Nat.lt_trans (ih hs) hstep

/-- The next token, if the source has another one. -/
def readToken? (r : Reader) : Option Token × Reader :=
  let step := r.readToken
  (if step.1.isEnd then none else some step.1, step.2)

/-- All tokens from here to the end of the source, and the reader at the end. -/
def tokens (r : Reader) : List Token × Reader :=
  let onward := r.pieces
  (onward.1.filterMap Piece.token?, onward.2)

end Reader

/-- The tokens of a source. -/
def Text.tokens (source : Text) : List Token :=
  (Reader.ofText source).tokens.1

/-- The kinds of the tokens of a source. -/
def Text.kinds (source : Text) : List Kind :=
  source.tokens.map Token.kind

end AngleLexer
