import AngleLexer.Reader.Basic

/-!
# Sessions with a reader

A reader may be driven by any sequence of requests: for pieces, for tokens, for all remaining
tokens, for the comments, or to start over with another source. A `Reader.Request` is one of them,
and `Reader.serve` is its answer and the reader afterwards. Laws about interleavings are statements
about lists of requests (`Reader.run`).
-/

namespace AngleLexer.Reader

/-- What can be asked of a reader. -/
inductive Request where
  /-- the next piece, trivia included -/
  | piece
  /-- the next token, or the end-of-input token -/
  | token
  /-- the next token, if there is another one -/
  | token?
  /-- all remaining tokens -/
  | tokens
  /-- a look at the comments -/
  | comments
  /-- the comments, which are then forgotten -/
  | drain
  /-- to start over with another source -/
  | restart (source : Text)
deriving DecidableEq

/-- What a reader answers. -/
inductive Reply where
  /-- a piece -/
  | piece (piece : Piece)
  /-- a token -/
  | token (token : Token)
  /-- a token, or nothing at the end -/
  | token? (token? : Option Token)
  /-- several tokens -/
  | tokens (tokens : List Token)
  /-- several comments -/
  | comments (comments : List Comment)
  /-- no answer is needed -/
  | done
deriving DecidableEq

/-- The answer to a request, and the reader afterwards. -/
def serve (r : Reader) : Request → Reply × Reader
  | .piece => r.readPiece.map .piece id
  | .token => r.readToken.map .token id
  | .token? => r.readToken?.map .token? id
  | .tokens => r.tokens.map .tokens id
  | .comments => (.comments r.comments, r)
  | .drain => r.drainComments.map .comments id
  | .restart source => (.done, ofText source)

/-- The answers to several requests in a row, and the reader afterwards. -/
def run (r : Reader) : List Request → List Reply × Reader
  | [] => ([], r)
  | q :: qs =>
    let step := r.serve q
    let onward := step.2.run qs
    (step.1 :: onward.1, onward.2)

end AngleLexer.Reader
