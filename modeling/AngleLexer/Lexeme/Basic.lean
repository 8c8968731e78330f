import AngleLexer.Lexeme.Number
import AngleLexer.Lexeme.Quoted
import AngleLexer.Token.Basic

/-!
# Lexemes

The lexical grammar, as a function on the text that is still to be read. `Lexeme.ofText?` says
what the text starts with and how many characters that takes; it knows nothing about positions
or about what was read before, so it is a function of the remaining text alone.

White space, string literals and comments are recognised first. For everything else the first
character decides which rule can apply, and each rule takes as much as it can. A text that no
rule accepts is one invalid lexeme to its end, and so is a block comment without its end mark.
A broken string literal is invalid only as far as its scan went.

Main statement: a text that is not empty starts with a lexeme, and that lexeme is not empty
(`Lexeme.ofText?_eq_none_iff`, `Lexeme.width_pos`), so reading always gets on.
-/

namespace AngleLexer

/-- What a lexeme is. -/
inductive Category where
  /-- a piece without meaning -/
  | trivia (kind : TriviaKind)
  /-- a token -/
  | token (kind : Kind)
deriving DecidableEq

/-- The first thing in a text: what it is and how many characters it takes. -/
structure Lexeme where
  /-- what it is -/
  category : Category
  /-- its length in characters -/
  width : Nat
deriving DecidableEq

namespace Lexeme

/-! ## The rules -/

/-- An invalid stretch that takes the whole text. -/
def invalid (t : Text) : Lexeme :=
  ⟨.token .invalid, t.length⟩

/-- The characters that start a word. -/
def isWordStart (c : Char) : Bool := c.isAlpha || c == '_'

/-- The characters that continue a word. -/
def isWordRest (c : Char) : Bool := isWordStart c || isDecimalDigit c

/-- The word that a text starts with: a keyword if the vocabulary lists it, and otherwise an
identifier. -/
def word (t : Text) : Lexeme :=
  let letters := t.takeWhile isWordRest
  ⟨.token (((Keyword.ofText? letters).map Kind.keyword).getD .identifier), letters.length⟩

/-- The string literal whose opening quote `rest` follows. -/
def string (rest : Text) : Lexeme :=
  let scan := stringLiteral rest
  ⟨.token (if scan.finish = .closed then .stringLiteral else .invalid), scan.width⟩

/-- The length of a text through the first end mark of a block comment in it. -/
def blockEnd? : Text → Option Nat
  | [] => none
  | '*' :: '/' :: _ => some 2
  | _ :: rest => (blockEnd? rest).map (· + 1)

/-- The comment that a text starts with, if it starts with the mark of one. The end mark of a
block comment cannot share the star of its opening mark. -/
def comment? (t : Text) : Option Lexeme :=
  match t with
  | '/' :: '/' :: _ => some ⟨.trivia .lineComment, (t.takeWhile (· != '\n')).length⟩
  | '/' :: '*' :: rest =>
    match blockEnd? rest with
    | some n => some ⟨.trivia .blockComment, n + 2⟩
    | none => some (invalid t)
  | _ => none

/-- What a text starts with by the rules that its first character `c` selects. -/
def byRule? (c : Char) (rest : Text) : Option Lexeme :=
  if isWordStart c then some (word (c :: rest))
  else if isDecimalDigit c then some ⟨.token .number, number (c :: rest)⟩
  else if c = '\x60' then
    (escapedNameTail? rest).map fun n => ⟨.token .escapedIdentifier, n + 1⟩
  else if c = '\'' then (charTail? rest).map fun n => ⟨.token .charLiteral, n + 1⟩
  else (Symbol.atStart? (c :: rest)).map fun s => ⟨.token (.symbol s), s.text.length⟩

/-- The lexeme at the start of a text whose first character is `c`. -/
def first (c : Char) (rest : Text) : Lexeme :=
  if isSpace c then ⟨.trivia .whitespace, (rest.takeWhile isSpace).length + 1⟩
  else if c = '"' then string rest
  else ((comment? (c :: rest)).or (byRule? c rest)).getD (invalid (c :: rest))

/-- The lexeme that a text starts with; an empty text starts with none. -/
def ofText? : Text → Option Lexeme
  | [] => none
  | c :: rest => some (first c rest)

/-! ## Reading gets on -/

theorem ofText?_eq_none_iff {t : Text} : ofText? t = none ↔ t = [] := by
  cases t <;> simp [ofText?]

theorem width_pos_of_comment? {t : Text} {l : Lexeme} (h : comment? t = some l) :
    0 < l.width := by
  unfold comment? at h
  split at h
  · cases h
    simp
  · split at h
    · cases h
      simp
    · cases h
      simp [invalid]
  · cases h

theorem width_pos_of_byRule? {c : Char} {rest : Text} {l : Lexeme}
    (h : byRule? c rest = some l) : 0 < l.width := by
  unfold byRule? at h
  split at h
  · rename_i hc
    cases h
    simp [word, isWordRest, hc]
  · split at h
    · rename_i hd
      cases h
      exact number_pos hd
    · split at h
      · obtain ⟨n, -, rfl⟩ := Option.map_eq_some_iff.1 h
        exact Nat.succ_pos n
      · split at h
        · obtain ⟨n, -, rfl⟩ := Option.map_eq_some_iff.1 h
          exact Nat.succ_pos n
        · obtain ⟨s, -, rfl⟩ := Option.map_eq_some_iff.1 h
          exact List.length_pos_iff.2 s.text_ne_nil

/-- No lexeme is empty. -/
theorem width_pos {t : Text} {l : Lexeme} (h : ofText? t = some l) : 0 < l.width := by
  cases t with
  | nil => cases h
  | cons c rest =>
    obtain rfl : first c rest = l := Option.some.inj h
    unfold first
    split
    · exact Nat.succ_pos _
    · split
      · exact Nat.succ_pos _
      · cases hc : (comment? (c :: rest)).or (byRule? c rest) with
        | none => exact Nat.succ_pos _
        | some k =>
          rcases Option.or_eq_some_iff.1 hc with h | ⟨-, h⟩
          · exact width_pos_of_comment? h
          · exact width_pos_of_byRule? h

end Lexeme

end AngleLexer
