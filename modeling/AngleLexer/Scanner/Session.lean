import AngleLexer.Scanner.Basic

/-!
# Sessions with a scanner

A parser asks a scanner for tokens and for single characters, in any order, and may hand it
another source. A `Scanner.Request` is one such request, `Scanner.serve` is its answer and the
scanner afterwards, and `Scanner.run` serves several in a row.
-/

namespace AngleLexer.Scanner

/-- What can be asked of a scanner. -/
inductive Request where
  /-- the kind of the next token -/
  | kind
  /-- the next token, if there is another one -/
  | token?
  /-- all remaining tokens -/
  | tokens
  /-- one raw character, if there is another one -/
  | char?
  /-- to start over with another source -/
  | restart (source : Text)
deriving DecidableEq

/-- What a scanner answers. -/
inductive Reply where
  /-- the kind of a token -/
  | kind (kind : Kind)
  /-- a token, or nothing at the end -/
  | token? (token? : Option Token)
  /-- several tokens -/
  | tokens (tokens : List Token)
  /-- a character, or nothing at the end -/
  | char? (char? : Option Char)
  /-- no answer is needed -/
  | done
deriving DecidableEq

/-- The answer to a request, and the scanner afterwards. -/
def serve (s : Scanner) : Request → Reply × Scanner
  | .kind => s.readKind.map .kind id
  | .token? => s.readToken?.map .token? id
  | .tokens => s.tokens.map .tokens id
  | .char? => s.readChar?.map .char? id
  | .restart source => (.done, ofText source)

/-- The answers to several requests in a row, and the scanner afterwards. -/
def run (s : Scanner) : List Request → List Reply × Scanner
  | [] => ([], s)
  | q :: qs =>
    let step := s.serve q
    let onward := step.2.run qs
    (step.1 :: onward.1, onward.2)

end AngleLexer.Scanner
