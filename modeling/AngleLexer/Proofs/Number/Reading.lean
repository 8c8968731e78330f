import AngleLexer.Proofs.Number.Extent
import AngleLexer.Proofs.Reader.Ahead

/-!
# Reading a number

In front of a digit a reader finds a number, and the longest one that the text starts with
(`Reader.readToken_number`). What is left decides what comes next, as if it were a source of its own:
`1.` and `1e-` are a number and something else, and a third digit of `0b12` is a number again.
-/

namespace AngleLexer.Reader

theorem readToken_of_number {r : Reader} {n : Nat}
    (h : Lexeme.ofText? r.ahead = some ⟨.token .number, n⟩) :
    r.readToken =
      (⟨.number, r.ahead.take n, .ofText r.position (r.ahead.take n)⟩, r.skip n) := by
  have hread := readPiece_of_ofText? h
  rw [readToken_of_token (Lexeme.ne_nil_of_ofText? h) (congrArg Prod.fst hread), hread]
  -- a number is no comment
  change (_, { r.skip n with comments := r.comments ++ [] }) = _
  rw [List.append_nil]
  rfl

/-- **In front of a digit the next token is a number**: the longest prefix of the text ahead that is
one. It is taken off, nothing else about the reader changes but the place where it stands, and the
pieces behind it are those of the rest as a source of its own. -/
theorem readToken_number {r : Reader} {c : Char} (hc : c ∈ r.ahead.head?)
    (hdigit : isDecimalDigit c = true) :
    ∃ n, LongestPrefix IsNumber r.ahead n ∧
      r.readToken =
        (⟨.number, r.ahead.take n, .ofText r.position (r.ahead.take n)⟩, r.skip n) ∧
      r.readPiece = (.token r.readToken.1, r.readToken.2) ∧
      (r.skip n).pieces.1.map Piece.content = (ofText (r.ahead.drop n)).pieces.1.map Piece.content := by
  obtain ⟨rest, hahead⟩ := List.head?_eq_some_iff.1 hc
  have hlongest : LongestPrefix IsNumber r.ahead (Lexeme.number r.ahead) := by
    rw [hahead]
    exact Lexeme.longestPrefix_number hdigit
  have hlexeme := Lexeme.ofText?_eq_number_iff.2 ⟨c, rest, hahead, hdigit, rfl⟩
  obtain ⟨hpiece, -, -⟩ := readToken_of_lexeme hlexeme
  exact ⟨_, hlongest, readToken_of_number hlexeme, hpiece, map_content_pieces rfl⟩

/-- An exponent needs a digit, so this number ends before it. -/
theorem readToken_number_open_exponent :
    '1' ∈ (ofText "10_0.2e-_5".toList).ahead.head? ∧ isDecimalDigit '1' = true ∧
      (ofText "10_0.2e-_5".toList).readToken.1.text = "10_0.2".toList := by
  have hc : '1' ∈ (ofText "10_0.2e-_5".toList).ahead.head? := by decide
  have hdigit : isDecimalDigit '1' = true := by decide
  obtain ⟨n, hlongest, hread, -, -⟩ := readToken_number hc hdigit
  have hn : n = 6 := hlongest.unique (Lexeme.longestPrefix_number hdigit)
  refine ⟨hc, hdigit, ?_⟩
  rw [hread, hn]
  rfl

end AngleLexer.Reader
