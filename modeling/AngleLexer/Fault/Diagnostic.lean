import AngleLexer.Fault.Basic

/-!
# Diagnostics

A diagnostic tells the user about a fault: a message, a label on the place in the file, and a note
with line and column. Positions are lines and columns of characters, while a label is a range of
bytes, so the file is needed to find the range (`Text.byteOffset`). It may be another text than the
one the fault was found in; a position that lies outside it is moved to the end of its line, or of
the file.

The label of an unknown character covers just that character, the others cover the whole fault.
-/

namespace AngleLexer

/-- The number of bytes in front of a position in a file. Lines are counted from one. -/
def Text.byteOffset (file : Text) (p : Position) : Nat :=
  match p.line with
  | 0 => file.utf8Length
  | n + 1 =>
    match file.lines[n]? with
    | none => file.utf8Length
    | some line => utf8Length (file.lines.take n).flatten + utf8Length (line.take p.column)

/-- A marked range of bytes in a file. -/
structure Label where
  /-- which of the files is marked -/
  file : Nat
  /-- the first byte of the range -/
  start : Nat
  /-- the byte after the range -/
  stop : Nat
  /-- what the mark says -/
  message : Text
deriving DecidableEq

/-- What the user is told about a fault. -/
structure Diagnostic where
  /-- what is wrong -/
  message : Text
  /-- where it is -/
  labels : List Label
  /-- further remarks -/
  notes : List Text
deriving DecidableEq

namespace Fault

/-- What the label of a fault says. -/
def labelMessage (f : Fault) : Text :=
  match f.cause with
  | .openString => "ここから始まる文字列が閉じられていません".toList
  | .openComment => "ここから始まるコメントが閉じられていません".toList
  | .unknownCharacter => "この文字で始まるトークンはありません".toList

/-- The bytes of a file that the label of a fault covers, from the first to the one after the
last. -/
def range (f : Fault) (file : Text) : Nat × Nat :=
  let start := file.byteOffset f.span.first
  match f.cause with
  | .unknownCharacter => (start, start + f.culprit.utf8Size)
  | .openString | .openComment => (start, file.byteOffset f.span.last)

/-- The note with the place of a fault. -/
def note (f : Fault) : Text :=
  Text.ofNat f.span.first.line ++ "行目、".toList ++ Text.ofNat f.span.first.column ++
    "列目".toList

/-- What the user is told about a fault, with a label on the file of the given number. A file that
is not there gets no label. -/
def diagnostic (f : Fault) (files : List Text) (file : Nat) : Diagnostic where
  message := f.message
  labels :=
    (files[file]?.map fun text =>
      let r := f.range text
      ⟨file, r.1, r.2, f.labelMessage⟩).toList
  notes := [f.note]

end Fault

end AngleLexer
