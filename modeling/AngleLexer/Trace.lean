import AngleLexer.Scanner.Basic
import AngleLexer.Text.Quoted

/-!
# Trace of a scan

What a scanner reports about its own work: the openers of generic calls as the search finds them,
a summary of the source, and every token it hands out. `Trace.ofSource` is the whole account of a
source that is read to its end; the end of the input is the last token reported.
-/

namespace AngleLexer

/-- How important a record is. -/
inductive Level where
  /-- a summary -/
  | debug
  /-- a single step -/
  | trace
deriving DecidableEq

/-- A step in the work of a scanner. -/
inductive Step where
  /-- the token at an index opens the type arguments of a call -/
  | openerFound (index : Nat)
  /-- a source was taken in -/
  | sourceTaken (tokens openers : Nat)
  /-- the `<` at a place was relabeled -/
  | relabeled (place : Position)
  /-- a token was handed out -/
  | tokenRead (token : Token)
deriving DecidableEq

namespace Step

/-- How important a step is. -/
def level : Step → Level
  | sourceTaken .. => .debug
  | openerFound _ | relabeled _ | tokenRead _ => .trace

/-- What the record of a step says. -/
def message : Step → Text
  | openerFound index => "generic invocation bracket at token ".toList ++ Text.ofNat index
  | sourceTaken tokens openers =>
    "scanner input: ".toList ++ Text.ofNat tokens ++ " tokens, ".toList ++ Text.ofNat openers ++
      " generic invocation brackets".toList
  | relabeled place =>
    "relabeling '<' at ".toList ++ place.toText ++ " as a type-argument opener".toList
  | tokenRead t =>
    t.kind.name.toList ++ ' ' :: Text.quoted t.text ++ " at ".toList ++ t.span.toText

end Step

namespace Trace

/-- The steps in which a token is handed out. -/
def ofToken (t : Token) : List Step :=
  if t.kind = .genericLt then [.relabeled t.span.first, .tokenRead t] else [.tokenRead t]

/-- The steps in which a source is taken in and read to its end. -/
def ofSource (source : Text) : List Step :=
  let ks := source.kinds
  let openers := GenericCall.openersFromBack ks.reverse
  let (tokens, last) := (Scanner.ofText source).tokens
  openers.map .openerFound ++ [.sourceTaken ks.length openers.length] ++
    (tokens ++ last.current.toList).flatMap ofToken

end Trace

end AngleLexer
