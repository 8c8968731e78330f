import AngleLexer.Proofs.Reader.Ahead
import AngleLexer.Proofs.StringLiteral.Braces
import AngleLexer.Proofs.StringLiteral.Behind

/-!
# Broken string literals

A string literal without a closing quote must not take the following lines along. The scan of one goes
through some text in which every escape sequence is legal and no line breaks (`GoesThrough`), and then
it stops for one of three reasons (`Stops`): a line break follows, which it leaves; an escape sequence
is spoilt, by a character that it takes; or the input is over (`exists_stops`). So at most one line
break is taken, as the character that spoils an escape sequence, and it is the last character of the
invalid token (`Text.broken_string_on_line`).
-/

namespace AngleLexer

namespace Escape

/-! ## Spoilt escape sequences -/

/-- The character `c` spoils the escape sequence that has begun with the text behind a backslash. -/
inductive Spoils : Text → Char → Prop
  /-- no sequence begins with the character -/
  | illegal {c : Char} (noMark : ∀ m ∈ marks, m.1 ≠ c) (noNumber : c ≠ 'u') : Spoils [] c
  /-- the character is no digit, and there are too few digits in front of it -/
  | short {digits : Text} {c : Char} (digit : ∀ d ∈ digits, isHexDigit d = true)
    (few : digits.length < minDigits) (noDigit : isHexDigit c = false) : Spoils ('u' :: digits) c

/-- A sequence that has begun is on one line. -/
theorem Spoils.noBreak {s : Text} {c : Char} (h : Spoils s c) : ∀ d ∈ s, isLineBreak d = false := by
  cases h with
  | illegal _ _ => simp
  | short digit _ _ =>
    exact List.forall_mem_cons.2 ⟨by decide, fun d hd => Lexeme.isLineBreak_of_isHexDigit (digit d hd)⟩

/-- A code point with too few digits ends in front of a character that is none, or at the end. -/
theorem eq_append_of_read_shortCodePoint {t digits : Text} (h : read t = shortCodePoint digits) :
    (∃ rest, t = 'u' :: (digits ++ rest) ∧ ∀ c ∈ rest.head?, isHexDigit c = false) ∧
      (∀ c ∈ digits, isHexDigit c = true) ∧ digits.length < minDigits := by
  rcases t with _ | ⟨c, t⟩
  · cases h
  rw [read] at h
  split at h
  · rename_i hc
    dsimp only at h
    split at h
    · rename_i hmin
      have hdigits := shortCodePoint.inj h
      have hsplit : digits ++ ((t.take maxDigits).dropWhile isHexDigit ++ t.drop maxDigits) = t := by
        rw [← hdigits, ← List.append_assoc, List.takeWhile_append_dropWhile, List.take_append_drop]
      refine ⟨⟨_, by rw [hsplit, hc], ?_⟩, ?_, hdigits ▸ hmin⟩
      · have hstop := List.head?_dropWhile_not isHexDigit (t.take maxDigits)
        cases hrest : (t.take maxDigits).dropWhile isHexDigit with
        | cons d rest => simpa [hrest] using hstop
        | nil =>
          -- then the digits are all that is left of the text
          rw [hrest, List.nil_append] at hsplit
          have hlength := congrArg List.length hsplit
          simp only [List.length_append, List.length_drop] at hlength
          have hnil : t.drop maxDigits = [] := by
            rw [hdigits] at hmin
            simp only [List.drop_eq_nil_iff, maxDigits, minDigits] at hmin hlength ⊢
            omega
          simp [hnil]
      · rw [← hdigits]
        exact fun d hd => List.all_eq_true.1 List.all_takeWhile d hd
    · cases h
  · split at h <;> cases h

/-- A character that begins no sequence is neither a mark nor the letter of a code point. -/
theorem eq_cons_of_read_unknown {t : Text} {c : Char} (h : read t = unknown c) :
    (∃ rest, t = c :: rest) ∧ (∀ m ∈ marks, m.1 ≠ c) ∧ c ≠ 'u' := by
  rcases t with _ | ⟨d, t⟩
  · cases h
  rw [read] at h
  split at h
  · dsimp only at h
    split at h <;> cases h
  · rename_i hu
    split at h
    · cases h
    · rename_i hsimple
      obtain rfl := unknown.inj h
      refine ⟨⟨t, rfl⟩, ?_, hu⟩
      have hall : ∀ m ∈ marks, simple? m.1 = some m.2 := by decide
      rintro m hm rfl
      rw [hall m hm] at hsimple
      cases hsimple

theorem eq_nil_of_read_missing {t : Text} (h : read t = missing) : t = [] := by
  rcases t with _ | ⟨c, t⟩
  · rfl
  rw [read] at h
  split at h
  · dsimp only at h
    split at h <;> cases h
  · split at h <;> cases h

/-- A sequence is read in the same way if the text ends behind it. -/
theorem read_take {t : Text} {n : Nat} (h : (read t).width ≤ n) : read (t.take n) = read t := by
  by_cases hdrop : t.drop n = []
  · rw [List.take_of_length_le (List.drop_eq_nil_iff.1 hdrop)]
  · have hlength : (t.take n).length = n := by
      rw [List.length_take, Nat.min_eq_left (Nat.le_of_lt (Nat.lt_of_not_le (mt List.drop_eq_nil_of_le hdrop)))]
    have hreplace := read_replace (v := t.take n) (StopsLike.of_isPrefix List.nil_prefix) hdrop
    rw [List.take_append_drop, hlength, List.append_nil] at hreplace
    exact hreplace h

end Escape

namespace Lexeme

/-! ## How the scan stops -/

/-- The scan of a string literal goes through the text: its escape sequences are legal, and outside of
them no line breaks. -/
structure GoesThrough (body : Text) : Prop where
  /-- every backslash has a sequence -/
  legal : ∀ e ∈ escapes body, e.isLegal = true
  /-- the other characters are on one line -/
  noBreak : ∀ c ∈ unescaped body, isLineBreak c = false

/-- How the scan of a string literal stops without a closing quote: the text that it still takes, and
the text that it leaves. -/
inductive Stops : Text → Text → StringEnd → Prop
  /-- in front of a line break -/
  | lineBreak {c : Char} {rest : Text} (isBreak : isLineBreak c = true) :
    Stops [] (c :: rest) .lineBreak
  /-- behind the character that spoils an escape sequence -/
  | badEscape {s : Text} {c : Char} {rest : Text} (spoils : Escape.Spoils s c) :
    Stops ('\\' :: (s ++ [c])) rest .badEscape
  /-- at the end of the input -/
  | inputOver : Stops [] [] .inputOver
  /-- at the end of the input, inside an escape sequence -/
  | insideEscape {s : Text} (noBreak : ∀ c ∈ s, isLineBreak c = false) : Stops ('\\' :: s) [] .inputOver

namespace GoesThrough

theorem nil : GoesThrough [] := ⟨by simp, by simp⟩

theorem cons {c : Char} {body : Text} (h : GoesThrough body) (hescape : c ≠ '\\')
    (hbreak : isLineBreak c = false) : GoesThrough (c :: body) where
  legal := by
    rw [escapes_cons hescape]
    exact h.legal
  noBreak := by
    rw [unescaped_cons hescape]
    exact List.forall_mem_cons.2 ⟨hbreak, h.noBreak⟩

/-- A legal sequence comes in front of the text behind it. -/
theorem escape {t : Text} {n : Nat} (h : GoesThrough ((t.drop (Escape.read t).width).take n))
    (hlegal : (Escape.read t).isLegal = true) :
    GoesThrough ('\\' :: t.take ((Escape.read t).width + n)) := by
  have hread := Escape.read_take (Nat.le_add_right (Escape.read t).width n)
  have hdrop : (t.take ((Escape.read t).width + n)).drop (Escape.read t).width =
      (t.drop (Escape.read t).width).take n := by
    rw [List.drop_take, Nat.add_sub_cancel_left]
  constructor
  · rw [escapes_escape, hread, hdrop]
    exact List.forall_mem_cons.2 ⟨hlegal, h.legal⟩
  · rw [unescaped_escape, hread, hdrop]
    exact h.noBreak

/-- Nor is there a line break in an escape sequence. -/
theorem isLineBreak_eq_false {body : Text} (h : GoesThrough body) :
    ∀ c ∈ body, isLineBreak c = false := by
  obtain ⟨hlegal, hbreak⟩ := h
  fun_induction unescaped body with
  | case1 => simp
  | case2 rest ih =>
    rw [escapes_escape] at hlegal
    obtain ⟨hread, hlegal⟩ := List.forall_mem_cons.1 hlegal
    have hrest := List.forall_mem_append.2 ⟨isLineBreak_take_escape hread, ih hlegal hbreak⟩
    rw [List.take_append_drop] at hrest
    exact List.forall_mem_cons.2 ⟨by decide, hrest⟩
  | case3 c rest hescape ih =>
    rw [escapes_cons hescape] at hlegal
    obtain ⟨hc, hbreak⟩ := List.forall_mem_cons.1 hbreak
    exact List.forall_mem_cons.2 ⟨hc, ih hlegal hbreak⟩

end GoesThrough

theorem Closes.goesThrough {d : Int} {body : Text} (h : Closes d body) : GoesThrough body :=
  have ⟨hlegal, hpasses⟩ := closes_iff.1 h
  ⟨hlegal, hpasses.noBreak⟩

/-! ## The whole scan -/

/-- The scan that ends with `finish` after `width` characters of a text goes through some text and stops
there. -/
def StopsIn (t : Text) (s : StringScan) : Prop :=
  ∃ body tail rest, t = body ++ tail ++ rest ∧ s.width = (body ++ tail).length ∧
    GoesThrough body ∧ Stops tail rest s.finish

theorem StopsIn.cons {c : Char} {t : Text} {s : StringScan} (h : StopsIn t s) (hescape : c ≠ '\\')
    (hbreak : isLineBreak c = false) : StopsIn (c :: t) (s.widen 1) := by
  obtain ⟨body, tail, rest, rfl, hwidth, hthrough, hstops⟩ := h
  refine ⟨c :: body, tail, rest, rfl, ?_, hthrough.cons hescape hbreak, hstops⟩
  simp [StringScan.widen, hwidth]

theorem StopsIn.escape {t : Text} {s : StringScan} (h : StopsIn (t.drop (Escape.read t).width) s)
    (hlegal : (Escape.read t).isLegal = true) :
    StopsIn ('\\' :: t) (s.widen ((Escape.read t).width + 1)) := by
  obtain ⟨body, tail, rest, hdrop, hwidth, hthrough, hstops⟩ := h
  have hlength := List.length_take_of_le (Escape.width_read_le t)
  have htake : (t.drop (Escape.read t).width).take body.length = body := by
    rw [hdrop, List.append_assoc, List.take_left]
  refine ⟨'\\' :: (t.take (Escape.read t).width ++ body), tail, rest, ?_, ?_, ?_, hstops⟩
  · simp [← hdrop]
  · simp [StringScan.widen, hwidth, hlength]
    omega
  · rw [← htake] at hthrough
    have hescape := hthrough.escape hlegal
    rwa [List.take_add, htake] at hescape

/-- **A scan that does not close** goes through a text and stops there. -/
theorem stopsIn_stringTail {d : Int} {t : Text} (h : (stringTail d t).finish ≠ .closed) :
    StopsIn t (stringTail d t) := by
  fun_induction stringTail d t with
  | case1 d => exact ⟨[], [], [], rfl, rfl, .nil, .inputOver⟩
  | case2 d rest escape _ hescape ih | case3 d rest escape _ hescape ih =>
    exact (ih h).escape (by simp only [escape] at hescape; rw [hescape]; rfl)
  | case4 d rest escape digits hescape =>
    obtain ⟨⟨behind, rfl, hstop⟩, hdigits, hfew⟩ := Escape.eq_append_of_read_shortCodePoint hescape
    rw [hescape]
    cases behind with
    | nil =>
      refine ⟨[], '\\' :: 'u' :: digits, [], by simp, by simp [Escape.width], .nil, ?_⟩
      simp only [Escape.width, List.append_nil, List.length_cons, Nat.lt_irrefl, if_false]
      exact .insideEscape (List.forall_mem_cons.2 ⟨by decide, fun c hc =>
        isLineBreak_of_isHexDigit (hdigits c hc)⟩)
    | cons c behind =>
      have hspoils := Escape.Spoils.short hdigits hfew (hstop c rfl)
      refine ⟨[], '\\' :: ('u' :: digits ++ [c]), behind, by simp, ?_, .nil, ?_⟩
      · simp [Escape.width]
      · simpa [Escape.width] using Stops.badEscape hspoils
  | case5 d rest escape c hescape =>
    obtain ⟨⟨behind, rfl⟩, hmark, hnumber⟩ := Escape.eq_cons_of_read_unknown hescape
    rw [hescape]
    exact ⟨[], ['\\', c], behind, rfl, rfl, .nil, .badEscape (.illegal hmark hnumber)⟩
  | case6 d rest escape hescape =>
    obtain rfl := Escape.eq_nil_of_read_missing hescape
    exact ⟨[], ['\\'], [], rfl, rfl, .nil, .insideEscape (by simp)⟩
  | case7 d c rest _ hbreak => exact ⟨[], [], c :: rest, rfl, rfl, .nil, .lineBreak hbreak⟩
  | case8 d rest _ _ ih | case9 d rest _ _ _ ih => exact (ih h).cons (by decide) (by decide)
  | case10 d => exact absurd rfl h
  | case11 d c rest hescape hbreak _ _ _ ih => exact (ih h).cons hescape (Bool.not_eq_true _ ▸ hbreak)

/-! ## Broken literals of a source -/

/-- The text ends with the character that spoils an escape sequence. -/
def EndsSpoilt (x : Text) : Prop :=
  ∃ body s c, x = '"' :: (body ++ '\\' :: (s ++ [c])) ∧ (∀ e ∈ escapes body, e.isLegal = true) ∧
    Escape.Spoils s c

namespace Stops

variable {body tail rest : Text} {finish : StringEnd}

/-- What a scan takes where it stops is on one line, but for a character that spoils a sequence. -/
theorem noBreak_or_spoils (h : Stops tail rest finish) :
    (∀ c ∈ tail, isLineBreak c = false) ∨ ∃ s c, tail = '\\' :: (s ++ [c]) ∧ Escape.Spoils s c := by
  cases h with
  | lineBreak _ | inputOver => simp
  | @badEscape s c _ spoils => exact Or.inr ⟨s, c, rfl, spoils⟩
  | insideEscape noBreak => exact Or.inl (List.forall_mem_cons.2 ⟨by decide, noBreak⟩)

/-- Only the last character of a broken literal can be a line break, and then it spoils a sequence. -/
theorem isLineBreak_last (h : Stops tail rest finish) (hthrough : GoesThrough body) :
    (∀ c ∈ ('"' :: (body ++ tail)).dropLast, isLineBreak c = false) ∧
      ∀ c ∈ ('"' :: (body ++ tail)).getLast?, isLineBreak c = true → EndsSpoilt ('"' :: (body ++ tail)) := by
  have hbody : ∀ c ∈ '"' :: body, isLineBreak c = false :=
    List.forall_mem_cons.2 ⟨by decide, hthrough.isLineBreak_eq_false⟩
  obtain hplain | ⟨s, c, rfl, hspoils⟩ := h.noBreak_or_spoils
  · have hall := List.forall_mem_append.2 ⟨hbody, hplain⟩
    refine ⟨fun c hc => hall c (List.dropLast_subset _ hc), fun c hc hbreak => ?_⟩
    rw [hall c (List.mem_of_getLast? hc)] at hbreak
    cases hbreak
  · have hinit := List.forall_mem_append.2 ⟨hbody, List.forall_mem_cons.2
      ⟨(by decide : isLineBreak '\\' = false), hspoils.noBreak⟩⟩
    refine ⟨?_, fun _ _ _ => ⟨body, s, c, rfl, hthrough.legal, hspoils⟩⟩
    have hlast : '"' :: (body ++ '\\' :: (s ++ [c])) = ('"' :: body ++ '\\' :: s) ++ [c] := by simp
    rw [hlast, List.dropLast_concat]
    exact hinit

/-- If no sequence is spoilt, a line break follows, unless the input is over. -/
theorem isLineBreak_behind (h : Stops tail rest finish) (hthrough : GoesThrough body)
    (hnot : ¬ EndsSpoilt ('"' :: (body ++ tail))) (hne : rest ≠ []) :
    ∃ c later, rest = c :: later ∧ isLineBreak c = true := by
  cases h with
  | lineBreak isBreak => exact ⟨_, _, rfl, isBreak⟩
  | badEscape spoils => exact absurd ⟨body, _, _, rfl, hthrough.legal, spoils⟩ hnot
  | inputOver | insideEscape _ => exact absurd rfl hne

end Stops

end Lexeme

namespace Reader

variable {r : Reader} {before after : List Piece} {t : Token}

/-- An invalid token that begins with a quote is what the scan of a string literal takes. -/
theorem exists_stops_of_invalid (h : r.pieces.1 = before ++ .token t :: after)
    (hkind : t.kind = .invalid) (hquote : t.text.head? = some '"') :
    ∃ body tail finish, t.text = '"' :: (body ++ tail) ∧ Lexeme.GoesThrough body ∧
      Lexeme.Stops tail (after.map Piece.text).flatten finish := by
  have hlexeme := ofText?_of_pieces h
  obtain ⟨inside, htext⟩ := List.head?_eq_some_iff.1 hquote
  simp only [Piece.text, Piece.category, htext, hkind, List.cons_append] at hlexeme
  have hstring : Lexeme.string (inside ++ (after.map Piece.text).flatten) = _ := Option.some.inj hlexeme
  obtain ⟨hcategory, hwidth⟩ := Lexeme.mk.inj hstring
  have hbroken : (Lexeme.stringLiteral (inside ++ (after.map Piece.text).flatten)).finish ≠ .closed := by
    intro hclosed
    rw [if_pos hclosed] at hcategory
    cases hcategory
  obtain ⟨body, tail, rest, hsplit, hlength, hthrough, hstops⟩ := Lexeme.stopsIn_stringTail hbroken
  have hinside : inside.length = (body ++ tail).length := (Nat.succ.inj hwidth).symm.trans hlength
  obtain ⟨rfl, rfl⟩ := List.append_inj hsplit hinside
  exact ⟨body, tail, _, htext, hthrough, hstops⟩

/-- A piece in front of which a line break stands is white space that begins with it. -/
theorem whitespace_of_lineBreak {p : Piece} {c : Char} {rest : Text}
    (h : r.pieces.1 = before ++ p :: after) (hc : isLineBreak c = true)
    (hahead : p.text ++ (after.map Piece.text).flatten = c :: rest) :
    ∃ w, p = .trivia w ∧ w.kind = .whitespace ∧ w.text.head? = some c := by
  have hlexeme := ofText?_of_pieces h
  have hne : p.text ≠ [] := (pieces_tile r).text_ne_nil_of_mem (h ▸ by simp)
  rw [hahead] at hlexeme
  have hfirst : Lexeme.first c rest = ⟨p.category, p.text.length⟩ := Option.some.inj hlexeme
  rw [Lexeme.first, if_pos (isSpace_of_isLineBreak hc)] at hfirst
  have hcategory := (Lexeme.mk.inj hfirst).1
  obtain ⟨d, text, htext⟩ := List.exists_cons_of_ne_nil hne
  rw [htext] at hahead
  obtain ⟨rfl, -⟩ := List.cons.inj hahead
  cases p with
  | token _ => cases hcategory
  | trivia w => exact ⟨w, rfl, (Category.trivia.inj hcategory).symm, congrArg List.head? htext⟩

end Reader

/-- **A broken string literal leaves the next line alone.** No string literal has one of the seven line
breaks in it. An invalid token that begins with a quote has one at most, as its last character, and then
that character spoils an escape sequence which is none or has too few digits. Unless the token ends with
such a character or where the source ends, it is followed by white space that begins with a line break. -/
theorem Text.broken_string_on_line (source : Text) :
    (∀ t ∈ source.tokens, t.kind = .stringLiteral → ∀ c ∈ t.text, c ∉ Lexeme.lineBreaks) ∧
    ∀ (before after : List Piece) (t : Token),
      (Reader.ofText source).pieces.1 = before ++ .token t :: after → t.kind = .invalid →
      t.text.head? = some '"' →
        (∀ c ∈ t.text.dropLast, c ∉ Lexeme.lineBreaks) ∧
        (∀ c ∈ t.text.getLast?, c ∈ Lexeme.lineBreaks → Lexeme.EndsSpoilt t.text) ∧
        (¬ Lexeme.EndsSpoilt t.text → (before.map Piece.text).flatten ++ t.text ≠ source →
          ∃ w later c, after = .trivia w :: later ∧ w.kind = .whitespace ∧ w.text.head? = some c ∧
            c ∈ Lexeme.lineBreaks) := by
  simp only [← Lexeme.isLineBreak_iff_mem, Bool.not_eq_true]
  constructor
  · intro t ht hkind
    obtain ⟨body, htext, hcloses⟩ := exists_closes_of_mem_tokens ht hkind
    rw [htext, Lexeme.quoted]
    refine List.forall_mem_cons.2 ⟨by decide, List.forall_mem_append.2 ⟨?_, by simp [isLineBreak]⟩⟩
    exact hcloses.goesThrough.isLineBreak_eq_false
  · intro before after t h hkind hquote
    obtain ⟨body, tail, finish, htext, hthrough, hstops⟩ := Reader.exists_stops_of_invalid h hkind hquote
    obtain ⟨hinit, hlast⟩ := hstops.isLineBreak_last hthrough
    rw [htext]
    refine ⟨hinit, hlast, fun hnot hmore => ?_⟩
    have hne : (after.map Piece.text).flatten ≠ [] := by
      intro hnil
      apply hmore
      have hflat : _ = source := Reader.flatten_pieces (Reader.ofText source)
      rw [← hflat, h, List.map_append, List.flatten_append, List.map_cons, List.flatten_cons, hnil,
        List.append_nil, Piece.text, htext]
    obtain ⟨c, later, hbehind, hc⟩ := hstops.isLineBreak_behind hthrough hnot hne
    cases after with
    | nil => cases hbehind
    | cons p after =>
      rw [List.append_cons] at h
      obtain ⟨w, rfl, hw, hhead⟩ := Reader.whitespace_of_lineBreak h hc hbehind
      exact ⟨w, after, c, rfl, hw, hhead, hc⟩

/-- A line break that spoils an escape sequence is part of the invalid token. -/
example : (Text.tokens "\"\\u1\n2\"\n".toList).map (fun t => String.ofList t.text) =
    ["\"\\u1\n", "2", "\""] := by
  decide +kernel

end AngleLexer
