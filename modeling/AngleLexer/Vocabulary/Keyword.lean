import AngleLexer.Text.Basic

/-!
# Keywords

The words that the language takes for itself. A `Keyword` is a word together with the evidence
that the vocabulary lists it, so the table `Keyword.words` is the only place that says what is a
keyword: recognising one is looking it up (`Keyword.ofText?`), and its spelling is the word.

A few of the words act as keywords only where the grammar expects them. They are **contextual**;
all others are reserved outright.
-/

namespace AngleLexer

/-- The words that are always reserved. -/
def reservedWords : List String :=
  ["abstract", "boolean", "break", "byte", "case", "catch", "char", "class", "const", "continue",
   "default", "do", "double", "else", "enum", "extends", "final", "finally", "float", "for",
   "goto", "if", "implements", "import", "instanceof", "int", "interface", "long", "native",
   "new", "package", "private", "protected", "public", "return", "short", "static", "super",
   "switch", "synchronized", "this", "throw", "throws", "transient", "try", "void", "volatile",
   "while", "true", "false", "null", "and", "as", "async", "await", "elif", "export", "func",
   "in", "is", "let", "loop", "match", "module", "mut", "not", "of", "operator", "or",
   "override", "self", "Self", "then", "trait", "type", "unless", "until", "val", "var", "yield"]

/-- The words that are keywords only in certain places of the grammar. -/
def contextualWords : List String :=
  ["get", "set", "step", "every", "some", "initialized"]

/-- A word of the vocabulary. -/
structure Keyword where
  /-- how the word is written -/
  spelling : String
  /-- the vocabulary lists the word -/
  listed : spelling ∈ reservedWords ++ contextualWords
deriving DecidableEq

namespace Keyword

/-- All keywords, the reserved ones first. -/
def all : List Keyword :=
  (reservedWords ++ contextualWords).attach.map fun w => ⟨w.1, w.2⟩

/-- The keyword that a word is, if it is one. -/
def ofText? (t : Text) : Option Keyword :=
  if h : String.ofList t ∈ reservedWords ++ contextualWords then some ⟨String.ofList t, h⟩ else none

/-- Whether the word is a keyword only in certain places. -/
def isContextual (k : Keyword) : Bool :=
  contextualWords.contains k.spelling

/-- The name under which listings show the keyword: its spelling with a capital letter. The two
spellings of `self` are told apart by what they refer to, and the two quantifiers carry a mark
that keeps them apart from other names. -/
def name (k : Keyword) : String :=
  match k.spelling with
  | "self" => "SelfValue"
  | "Self" => "SelfType"
  | "every" => "EveryKw"
  | "some" => "SomeKw"
  | word => word.capitalize

/-- Looking a word up finds the keyword that is written so, and nothing else. -/
theorem ofText?_eq_some_iff {t : Text} {k : Keyword} :
    ofText? t = some k ↔ k.spelling.toList = t := by
  unfold ofText?
  constructor
  · intro h
    split at h
    · cases h; simp
    · cases h
  · rintro rfl
    simp [k.listed]

end Keyword

end AngleLexer
