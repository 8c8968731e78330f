import AngleLexer.Proofs.Checked.Number
import AngleLexer.Proofs.Checked.StringLiteral
import AngleLexer.Proofs.Lexeme.Rules

/-!
# Lexemes, measured in bytes

What a text starts with is cut off it by a number of bytes, and each kind of lexeme has its own way to
find that number: the place of the first character that does not belong to it, the place of an end mark
and the bytes of the marks, the end of a scan, the bytes of a number, the bytes of a fixed spelling, or
all bytes of the text.

A match by rule is known to reach too far sometimes: where a longer rule was tried and failed, it may
cover more than the spelling that was found. So for kinds with a fixed spelling the end of the match is
not used, and what it would be is left open here (`reach`).

However a number was found, it is the number of bytes of the lexeme (`Checked.first?_eq`). So the text
can be cut there, and the part that is cut off is not empty (`Checked.first?_fits`).
-/

namespace AngleLexer.Checked

/-- What the rules that the first character selects make of a text, and the end of their match. -/
def byRule? (reach : Text → Nat) (c : Char) (rest : Text) : Option (Option (Kind × Nat)) :=
  match Lexeme.byRule? c rest with
  | some ⟨.token kind, width⟩ =>
    if kind = .number then (number? (c :: rest)).map fun len => some (kind, len)
    else if kind.spelling?.isSome then some (some (kind, reach (c :: rest)))
    else some (some (kind, Text.utf8Length ((c :: rest).take width)))
  | _ => some none

/-- The lexeme of the rule, cut off by its spelling if it has a fixed one. -/
def ruled? (reach : Text → Nat) (c : Char) (rest : Text) : Option (Category × Nat) := do
  match ← byRule? reach c rest with
  | some (kind, stop) => return (.token kind, (kind.spelling?.map String.utf8ByteSize).getD stop)
  | none => return (.token .invalid, Text.utf8Length (c :: rest))

/-- The block comment that a text starts with. Its end mark is looked for behind the opening mark. -/
def blockComment? (t : Text) : Option (Category × Nat) := do
  match Text.findText? ['*', '/'] (← Text.sliceFrom? t 2) with
  | some n => return (.trivia .blockComment, n + 4)
  | none => return (.token .invalid, t.utf8Length)

/-- What a text starts with, and how many bytes that takes. -/
def first? (reach : Text → Nat) (c : Char) (rest : Text) : Option (Category × Nat) :=
  let t : Text := c :: rest
  if isSpace c then
    some (.trivia .whitespace, (Text.find? (fun c => !isSpace c) t).getD (Text.utf8Length t))
  else if c = '"' then
    let scanned := string t
    some (.token scanned.1, scanned.2)
  else if ['/', '/'] <+: t then
    some (.trivia .lineComment, (Text.find? (· == '\n') t).getD (Text.utf8Length t))
  else if ['/', '*'] <+: t then blockComment? t
  else ruled? reach c rest

/-! ## What is found -/

/-- A lexeme of a text, measured in bytes. -/
def measured (t : Text) (l : Lexeme) : Category × Nat := (l.category, Text.utf8Length (t.take l.width))

theorem measured_invalid (t : Text) : measured t (Lexeme.invalid t) = (.token .invalid, t.utf8Length) :=
  congrArg (fun t => (Category.token .invalid, Text.utf8Length t)) List.take_length

/-- The end mark of a block comment is found in bytes where it is found in characters. -/
theorem findText?_endMark (t : Text) :
    (Text.findText? ['*', '/'] t).map (· + 2) =
      (Lexeme.blockEnd? t).map fun n => Text.utf8Length (t.take n) := by
  induction t with
  | nil => rfl
  | cons c t ih =>
    rw [Text.findText?]
    by_cases hmark : ['*', '/'] <+: c :: t
    · rw [if_pos hmark, Lexeme.blockEnd?_of_mark hmark, Option.map_some, Option.map_some,
        Text.take_eq_of_isPrefix hmark (n := 2) rfl]
      rfl
    · have hbehind := congrArg (Option.map (c.utf8Size + ·)) ih
      rw [Option.map_map, Option.map_map] at hbehind
      rw [if_neg hmark, Lexeme.blockEnd?_of_no_mark hmark, Option.map_map, Option.map_map]
      exact hbehind

/-- A kind with a fixed spelling takes as many bytes as its spelling. -/
theorem utf8ByteSize_spelling {c : Char} {rest : Text} {kind : Kind} {width : Nat} {spelling : String}
    (h : Lexeme.ByRule c rest ⟨.token kind, width⟩) (hspelling : kind.spelling? = some spelling) :
    spelling.utf8ByteSize = Text.utf8Length ((c :: rest).take width) := by
  obtain ⟨k, hk, hmakes⟩ := h.makes
  obtain rfl := Category.token.inj hk
  rw [hmakes.accepts.eq_spelling hspelling, Text.utf8Length_toList]

/-- Wherever the match ends, the rules find the bytes of the lexeme. -/
theorem byRule?_eq (reach : Text → Nat) (c : Char) (rest : Text) :
    ∃ found, byRule? reach c rest = some found ∧
      (found.map fun m => (Category.token m.1, (m.1.spelling?.map String.utf8ByteSize).getD m.2)) =
        (Lexeme.byRule? c rest).map (measured (c :: rest)) := by
  rcases hrule : Lexeme.byRule? c rest with _ | ⟨category, width⟩
  · rw [byRule?, hrule]
    exact ⟨none, rfl, rfl⟩
  have hby := Lexeme.byRule?_eq_some_iff.1 hrule
  obtain ⟨kind, rfl, -⟩ := hby.makes
  by_cases hkind : kind = .number
  · subst hkind
    have hdigit := hby.isDecimalDigit rfl
    obtain rfl := congrArg Lexeme.width
      (hby.unique (.number (Lexeme.isWordStart_of_isDecimalDigit hdigit) hdigit))
    rw [byRule?, hrule]
    dsimp only
    rw [if_pos rfl, number?_eq hdigit]
    exact ⟨_, rfl, rfl⟩
  · rw [byRule?, hrule]
    dsimp only
    rw [if_neg hkind]
    rcases hspelling : kind.spelling? with _ | spelling
    · refine ⟨_, rfl, ?_⟩
      rw [Option.map_some, Option.map_some, hspelling]
      rfl
    · refine ⟨_, rfl, ?_⟩
      rw [Option.map_some, Option.map_some, hspelling, Option.map_some, Option.getD_some,
        utf8ByteSize_spelling hby hspelling]
      rfl

theorem ruled?_eq (reach : Text → Nat) (c : Char) (rest : Text) :
    ruled? reach c rest =
      some (measured (c :: rest) ((Lexeme.byRule? c rest).getD (Lexeme.invalid (c :: rest)))) := by
  obtain ⟨found, hfound, hmap⟩ := byRule?_eq reach c rest
  rw [ruled?, hfound, Option.bind_eq_bind, Option.bind_some]
  rcases hrule : Lexeme.byRule? c rest with _ | l <;> rw [hrule] at hmap
  · rw [Option.map_none, Option.map_eq_none_iff] at hmap
    rw [hmap, Option.getD_none, measured_invalid]
    rfl
  · obtain ⟨m, rfl, hm⟩ := Option.map_eq_some_iff.1 hmap
    exact congrArg some hm

/-- The bytes of the end mark are counted once, and so are those of the opening mark. -/
theorem blockComment?_eq (u : Text) : ∃ l, Lexeme.comment? ('/' :: '*' :: u) = some l ∧
    blockComment? ('/' :: '*' :: u) = some (measured ('/' :: '*' :: u) l) := by
  have hslice : Text.sliceFrom? ('/' :: '*' :: u) 2 = some u := Text.sliceFrom?_append ['/', '*'] u
  have hmark := findText?_endMark u
  rw [blockComment?, hslice, Option.bind_eq_bind, Option.bind_some, Lexeme.comment?]
  rcases hend : Lexeme.blockEnd? u with _ | n <;> rw [hend] at hmark
  · rw [Option.map_none, Option.map_eq_none_iff] at hmark
    refine ⟨_, rfl, ?_⟩
    rw [hmark, measured_invalid]
    rfl
  · rw [Option.map_some] at hmark
    obtain ⟨m, hm, hlength⟩ := Option.map_eq_some_iff.1 hmark
    have hbytes : m + 4 = Text.utf8Length (('/' :: '*' :: u).take (n + 2)) := by
      rw [List.take_succ_cons, List.take_succ_cons, Text.utf8Length, Text.utf8Length, ← hlength]
      change m + 4 = 1 + (1 + (m + 2))
      omega
    refine ⟨_, rfl, ?_⟩
    rw [hm, measured, ← hbytes]
    rfl

/-- **Every way to measure a lexeme finds its bytes.** -/
theorem first?_eq (reach : Text → Nat) (c : Char) (rest : Text) :
    first? reach c rest = some (measured (c :: rest) (Lexeme.first c rest)) := by
  unfold first?
  dsimp only
  split
  · rename_i hspace
    have htake : (c :: rest).take ((rest.takeWhile isSpace).length + 1) = (c :: rest).takeWhile isSpace := by
      rw [List.take_succ_cons, Text.take_length_takeWhile, List.takeWhile_cons_of_pos hspace]
    rw [Lexeme.first, if_pos hspace, measured, htake, Text.find?_getD]
    simp only [Bool.not_not]
  rename_i hspace
  split
  · rename_i hquote
    subst hquote
    rw [Lexeme.first, if_neg hspace, if_pos rfl]
    exact congrArg some (string_eq rest)
  rename_i hquote
  rw [Lexeme.first_eq (Bool.not_eq_true _ ▸ hspace) hquote]
  split
  · rename_i hline
    obtain ⟨rfl, u, rfl⟩ := Text.exists_of_pair_isPrefix hline
    rw [Text.find?_getD, Lexeme.comment?, Option.some_or, Option.getD_some, measured]
    dsimp only
    rw [Text.take_length_takeWhile]
    rfl
  rename_i hline
  split
  · rename_i hblock
    obtain ⟨rfl, u, rfl⟩ := Text.exists_of_pair_isPrefix hblock
    obtain ⟨l, hcomment, heq⟩ := blockComment?_eq u
    rw [hcomment, heq, Option.some_or, Option.getD_some]
  · rename_i hblock
    rw [Lexeme.comment?_eq_none_iff.2 ⟨hline, hblock⟩, Option.none_or]
    exact ruled?_eq reach c rest

/-- **A lexeme can be cut off.** It has at least one byte and at most those of the text, and it ends
between two characters. -/
theorem first?_fits (reach : Text → Nat) (c : Char) (rest : Text) :
    ∃ category len, first? reach c rest = some (category, len) ∧ 0 < len ∧
      len ≤ Text.utf8Length (c :: rest) ∧ Text.IsBoundary (c :: rest) len := by
  have htake : (c :: rest).take (Lexeme.first c rest).width <+: c :: rest := List.take_prefix _ _
  have hpos : 0 < (Lexeme.first c rest).width := Lexeme.width_pos (t := c :: rest) rfl
  exact ⟨_, _, first?_eq reach c rest, Text.utf8Length_take_pos hpos c rest,
    Text.utf8Length_le_of_prefix htake, Text.isBoundary_of_isPrefix htake⟩

end AngleLexer.Checked
