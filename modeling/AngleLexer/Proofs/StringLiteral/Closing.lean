import AngleLexer.Proofs.Escape
import AngleLexer.Proofs.Reader.Tokens

/-!
# String literals that close

What stands between the quotes of a string literal is read with a depth of braces. `Lexeme.Closes`
tells from which depth on the scan goes through a text and finds the closing quote right behind it:
it has one rule for each way the scan gets on. The scan closes there (`Lexeme.stringTail_of_closes`)
and nowhere else (`Lexeme.closes_of_finish`). So a text starts with a string literal exactly if it
starts with a quoted text that closes from depth zero
(`Lexeme.ofText?_eq_stringLiteral_iff_closes`), and every string literal of a source is one
(`Text.exists_closes_of_mem_tokens`).

Whatever follows the closing quote has no part in this. In particular the escape sequences of a
literal are those of the text between its quotes.
-/

namespace AngleLexer

namespace Lexeme

/-! ## The characters of a literal -/

/-- The characters that end a line of text. -/
def lineBreaks : List Char := ['\n', '\x0b', '\x0c', '\r', '\u0085', '\u2028', '\u2029']

theorem isLineBreak_iff_mem {c : Char} : isLineBreak c = true ↔ c ∈ lineBreaks := by
  constructor
  · intro h
    have hn : c.toNat ∈ lineBreaks.map Char.toNat := by
      simp only [isLineBreak, Bool.or_eq_true, Bool.and_eq_true, decide_eq_true_eq,
        beq_iff_eq] at h
      simp only [lineBreaks, List.map_cons, List.map_nil, List.mem_cons, Char.reduceToNat]
      omega
    obtain ⟨b, hb, hbc⟩ := List.mem_map.1 hn
    exact Char.toNat_inj.1 hbc ▸ hb
  · have hall : lineBreaks.all isLineBreak = true := by decide
    exact List.all_eq_true.1 hall c

/-- The characters that mean something in a string literal. -/
def reserved : List Char := ['"', '\\', '\x7b', '\x7d'] ++ lineBreaks

theorem not_mem_reserved_iff {c : Char} :
    c ∉ reserved ↔ c ≠ '\\' ∧ isLineBreak c = false ∧ c ≠ '\x7b' ∧ c ≠ '\x7d' ∧ c ≠ '"' := by
  rw [← Bool.not_eq_true, isLineBreak_iff_mem, reserved]
  simp only [List.mem_append, List.mem_cons, List.not_mem_nil, or_false, not_or, ne_eq]
  exact ⟨fun ⟨⟨hq, he, ho, hc⟩, hb⟩ => ⟨he, hb, ho, hc, hq⟩,
    fun ⟨he, hb, ho, hc, hq⟩ => ⟨⟨hq, he, ho, hc⟩, hb⟩⟩

theorem not_mem_reserved_of_isHexDigit {c : Char} (h : isHexDigit c = true) : c ∉ reserved := by
  intro hc
  have hnone : reserved.any isHexDigit = false := by decide
  exact List.any_eq_false.1 hnone c hc h

/-- What a group with a code point holds has no meaning for the scan. -/
theorem not_mem_reserved_of_digits {digits : Text} (h : ∀ c ∈ digits, isHexDigit c = true) :
    ∀ c ∈ '0' :: 'x' :: digits, c ∉ reserved := by
  refine List.forall_mem_cons.2 ⟨by decide, List.forall_mem_cons.2 ⟨by decide, ?_⟩⟩
  intro c hc
  exact not_mem_reserved_of_isHexDigit (h c hc)

theorem isLineBreak_of_isHexDigit {c : Char} (h : isHexDigit c = true) : isLineBreak c = false :=
  (not_mem_reserved_iff.1 (not_mem_reserved_of_isHexDigit h)).2.1

/-- A legal escape sequence is on one line. -/
theorem isLineBreak_take_escape {t : Text} (h : (Escape.read t).isLegal = true) :
    ∀ c ∈ t.take (Escape.read t).width, isLineBreak c = false := by
  cases hread : Escape.read t with
  | simple denoted =>
    obtain ⟨mark, rest, rfl, hmark⟩ := Escape.exists_mark_of_read_simple hread
    have hall : (Escape.marks.all fun m => !isLineBreak m.1) = true := by decide
    exact List.forall_mem_singleton.2 (Bool.not_eq_true' _ ▸ List.all_eq_true.1 hall _ hmark)
  | codePoint digits =>
    obtain ⟨⟨rest, rfl⟩, hdigits, -⟩ := Escape.eq_append_of_read_codePoint hread
    rw [Escape.width, List.take_succ_cons, List.take_left]
    exact List.forall_mem_cons.2 ⟨rfl, fun c hc => isLineBreak_of_isHexDigit (hdigits c hc)⟩
  | shortCodePoint _ | unknown _ | missing =>
    rw [hread] at h
    cases h

/-! ## Closing -/

/-- From depth `d` of braces on, the scan of a string literal comes to the closing quote right
behind the text. -/
inductive Closes : Int → Text → Prop
  /-- the closing quote is next, and all groups are closed -/
  | closed : Closes 0 []
  /-- an escape sequence -/
  | escape {d : Int} {rest : Text} (legal : (Escape.read rest).isLegal = true)
    (closes : Closes d (rest.drop (Escape.read rest).width)) : Closes d ('\\' :: rest)
  /-- a brace that opens a group -/
  | opening {d : Int} {rest : Text} (closes : Closes (d + 1) rest) : Closes d ('\x7b' :: rest)
  /-- a brace that closes a group -/
  | closing {d : Int} {rest : Text} (closes : Closes (d - 1) rest) : Closes d ('\x7d' :: rest)
  /-- a quote inside groups -/
  | quote {d : Int} {rest : Text} (inside : d ≠ 0) (closes : Closes d rest) : Closes d ('"' :: rest)
  /-- any other character but a line break -/
  | ordinary {d : Int} {c : Char} {rest : Text} (free : c ∉ reserved) (closes : Closes d rest) :
    Closes d (c :: rest)

/-- Characters that mean nothing can be left out. -/
theorem closes_append_iff {d : Int} {s t : Text} (hs : ∀ c ∈ s, c ∉ reserved) :
    Closes d (s ++ t) ↔ Closes d t := by
  induction s with
  | nil => exact Iff.rfl
  | cons c s ih =>
    obtain ⟨hc, hs⟩ := List.forall_mem_cons.1 hs
    rw [← ih hs]
    constructor
    · intro h
      rw [List.cons_append] at h
      cases h with
      | escape _ _ | opening _ | closing _ | quote _ _ => exact absurd (by decide) hc
      | ordinary _ closes => exact closes
    · exact .ordinary hc

/-! ### One step of the scan -/

theorem stringTail_escape {d : Int} {rest : Text} (h : (Escape.read rest).isLegal = true) :
    stringTail d ('\\' :: rest) = (stringTail d (rest.drop (Escape.read rest).width)).widen
      ((Escape.read rest).width + 1) := by
  rw [stringTail, if_pos rfl]
  dsimp only
  split
  · rfl
  · rfl
  all_goals simp_all [Escape.isLegal]

theorem stringTail_opening (d : Int) (rest : Text) :
    stringTail d ('\x7b' :: rest) = (stringTail (d + 1) rest).widen 1 := by
  rw [stringTail]
  rfl

theorem stringTail_closing (d : Int) (rest : Text) :
    stringTail d ('\x7d' :: rest) = (stringTail (d - 1) rest).widen 1 := by
  rw [stringTail]
  rfl

theorem stringTail_quote (d : Int) (rest : Text) :
    stringTail d ('"' :: rest) = if d = 0 then ⟨.closed, 1⟩ else (stringTail d rest).widen 1 := by
  rw [stringTail]
  split <;> simp_all [isLineBreak]

theorem stringTail_ordinary {d : Int} {c : Char} (h : c ∉ reserved) (rest : Text) :
    stringTail d (c :: rest) = (stringTail d rest).widen 1 := by
  obtain ⟨hescape, hbreak, hopen, hclose, hquote⟩ := not_mem_reserved_iff.1 h
  rw [stringTail, if_neg hescape, if_neg (Bool.not_eq_true _ ▸ hbreak), if_neg hopen, if_neg hclose,
    if_neg fun h => hquote h.1]

/-! ### The whole scan -/

/-- The scan of a text that closes ends at the quote behind it. -/
theorem stringTail_of_closes {d : Int} {body : Text} (h : Closes d body) (t : Text) :
    stringTail d (body ++ '"' :: t) = ⟨.closed, body.length + 1⟩ := by
  induction h with
  | closed => exact stringTail_quote 0 t
  | @escape d rest legal closes ih =>
    have hne : rest ≠ [] := by
      rintro rfl
      cases legal
    -- the quote behind the text is no digit, so the sequence is the same with and without it
    have hread := Escape.read_append (c := '"') (by decide) hne t
    have hle := Escape.width_read_le rest
    rw [List.cons_append, stringTail_escape (hread.symm ▸ legal), hread,
      List.drop_append_of_le_length hle, ih]
    simp [StringScan.widen]
    omega
  | opening closes ih =>
    rw [List.cons_append, stringTail_opening, ih]
    rfl
  | closing closes ih =>
    rw [List.cons_append, stringTail_closing, ih]
    rfl
  | quote inside closes ih =>
    rw [List.cons_append, stringTail_quote, if_neg inside, ih]
    rfl
  | ordinary free closes ih =>
    rw [List.cons_append, stringTail_ordinary free, ih]
    rfl

/-- A scan that closes does so behind a text that closes. -/
theorem closes_of_finish {d : Int} {t : Text} (h : (stringTail d t).finish = .closed) :
    ∃ body rest, t = body ++ '"' :: rest ∧ Closes d body := by
  fun_induction stringTail d t with
  | case1 | case5 | case6 | case7 => cases h
  | case2 d rest escape denoted hescape ih | case3 d rest escape digits hescape ih =>
    obtain ⟨body, behind, hdrop, hcloses⟩ := ih h
    have hlegal : escape.isLegal = true := by
      rw [hescape]
      rfl
    -- the quote was found behind the sequence, so the sequence has ended before it
    obtain ⟨body', rfl, hread, rfl⟩ := Escape.exists_append_of_drop (by decide) hlegal hdrop
    exact ⟨'\\' :: body', behind, rfl, .escape (hread ▸ hlegal) (hread ▸ hcloses)⟩
  | case4 => split at h <;> cases h
  | case8 d rest _ _ ih =>
    obtain ⟨body, behind, rfl, hcloses⟩ := ih h
    exact ⟨_ :: body, behind, rfl, .opening hcloses⟩
  | case9 d rest _ _ _ ih =>
    obtain ⟨body, behind, rfl, hcloses⟩ := ih h
    exact ⟨_ :: body, behind, rfl, .closing hcloses⟩
  | case10 d c rest _ _ _ _ hquote =>
    obtain ⟨rfl, rfl⟩ := hquote
    exact ⟨[], rest, rfl, .closed⟩
  | case11 d c rest hescape hbreak hopen hclose hquote ih =>
    obtain ⟨body, behind, rfl, hcloses⟩ := ih h
    refine ⟨c :: body, behind, rfl, ?_⟩
    by_cases hc : c = '"'
    · subst hc
      exact .quote (fun hd => hquote ⟨rfl, hd⟩) hcloses
    · exact .ordinary (not_mem_reserved_iff.2
        ⟨hescape, Bool.not_eq_true _ ▸ hbreak, hopen, hclose, hc⟩) hcloses

/-! ## Literals -/

/-- A text between two quotes. -/
def quoted (body : Text) : Text := '"' :: (body ++ ['"'])

theorem length_quoted (body : Text) : (quoted body).length = body.length + 2 := by
  simp [quoted]

theorem quoted_append (body rest : Text) : quoted body ++ rest = '"' :: (body ++ '"' :: rest) := by
  simp [quoted]

/-- A text starts with a string literal if it starts with a quoted text that closes. -/
theorem ofText?_eq_stringLiteral_iff_closes {t : Text} {width : Nat} :
    ofText? t = some ⟨.token .stringLiteral, width⟩ ↔
      ∃ body rest, t = quoted body ++ rest ∧ width = (quoted body).length ∧ Closes 0 body := by
  rw [ofText?_eq_stringLiteral_iff]
  constructor
  · rintro ⟨inside, rfl, hscan⟩
    obtain ⟨body, rest, rfl, hcloses⟩ := closes_of_finish (congrArg StringScan.finish hscan)
    rw [stringLiteral, stringTail_of_closes hcloses] at hscan
    refine ⟨body, rest, (quoted_append body rest).symm, ?_, hcloses⟩
    rw [length_quoted]
    exact (congrArg StringScan.width hscan).symm
  · rintro ⟨body, rest, rfl, rfl, hcloses⟩
    refine ⟨body ++ '"' :: rest, quoted_append body rest, ?_⟩
    rw [stringLiteral, stringTail_of_closes hcloses, length_quoted]
    rfl

end Lexeme

/-- **The string literals of a source** are quoted texts that close. -/
theorem Text.exists_closes_of_mem_tokens {source : Text} {t : Token} (ht : t ∈ source.tokens)
    (hkind : t.kind = .stringLiteral) :
    ∃ body, t.text = Lexeme.quoted body ∧ Lexeme.Closes 0 body := by
  obtain ⟨ahead, width, -, hlexeme, htext⟩ := Reader.lexeme_of_mem_tokens ht
  rw [hkind] at hlexeme
  obtain ⟨body, rest, rfl, rfl, hcloses⟩ := Lexeme.ofText?_eq_stringLiteral_iff_closes.1 hlexeme
  rw [List.take_left] at htext
  exact ⟨body, htext, hcloses⟩

end AngleLexer
