import AngleLexer.Proofs.StringLiteral.Decoding

/-!
# Literals that are written

A text can be written as a string literal in many ways, because there are several ways to write a
character. `StringLiteral.Item` has them all: the character as it stands, an escape sequence, a code
point of four or five digits, and a group with a code point of any length. However the items are
mixed, the literal is read as one token and has the value that was written
(`StringLiteral.reads_back`). Only a code point of four digits must keep away from a fifth one.

The scan and the decoder go through the items side by side. For each item there is one lemma about
either of them (`Item.closes_append`, `Item.ofItems_append`).
-/

namespace AngleLexer.StringLiteral

open Lexeme (Closes quoted reserved)

/-! ## Items -/

/-- The number of a character in base sixteen, perhaps with zeros in front. -/
structure CodePoint where
  /-- the digits -/
  digits : Text
  /-- the character whose number they denote -/
  denoted : Char
  /-- there is a digit -/
  ne_nil : digits ≠ []
  /-- there is nothing else -/
  isHexDigit : ∀ c ∈ digits, isHexDigit c = true
  /-- the number is that of the character -/
  valueOf_digits : Radix.hexadecimal.valueOf digits = denoted.toNat

/-- A way to write one character in a string literal. -/
inductive Item where
  /-- a character that stands for itself -/
  | plain (c : Char) (free : c ∉ reserved)
  /-- a backslash and a character that makes an escape sequence -/
  | mark (mark denoted : Char) (listed : (mark, denoted) ∈ Escape.marks)
  /-- a backslash, the letter `u` and a number of four or five digits -/
  | codePoint (number : CodePoint) (length : number.digits.length = 4 ∨ number.digits.length = 5)
  /-- a group with a number of any length -/
  | group (number : CodePoint)

namespace Item

/-- How an item is written. -/
def text : Item → Text
  | plain c _ => [c]
  | mark m _ _ => ['\\', m]
  | codePoint number _ => '\\' :: 'u' :: number.digits
  | group number => '\x7b' :: '0' :: 'x' :: (number.digits ++ ['\x7d'])

/-- The character that an item stands for. -/
def denoted : Item → Char
  | plain c _ => c
  | mark _ c _ => c
  | codePoint number _ => number.denoted
  | group number => number.denoted

/-- An item can stand before a text unless the text starts with a digit that the item would take. -/
def FitsBefore (item : Item) (t : Text) : Prop :=
  match item with
  | codePoint number _ => number.digits.length = 4 → ∀ c ∈ t.head?, isHexDigit c = false
  | _ => True

instance : ∀ (item : Item) (t : Text), Decidable (item.FitsBefore t)
  | plain _ _, _ => inferInstanceAs (Decidable True)
  | mark _ _ _, _ => inferInstanceAs (Decidable True)
  | codePoint number _, t => decidable_of_iff
      (number.digits.length = 4 → t.head?.any AngleLexer.isHexDigit = false)
      (by cases t <;> simp [FitsBefore])
  | group _, _ => inferInstanceAs (Decidable True)

end Item

/-- The text of several items. -/
def written (items : List Item) : Text := items.flatMap Item.text

/-- No item takes a digit of those behind it. -/
def Separated : List Item → Prop
  | [] => True
  | item :: items => item.FitsBefore (written items) ∧ Separated items

instance decidableSeparated : ∀ items : List Item, Decidable (Separated items)
  | [] => inferInstanceAs (Decidable True)
  | item :: items =>
    have := decidableSeparated items
    inferInstanceAs (Decidable (item.FitsBefore (written items) ∧ Separated items))

/-! ## Parts of items -/

/-- The scan gets over a legal escape sequence. -/
theorem closes_escape {d : Int} {s t : Text} {e : Escape} (hread : Escape.read (s ++ t) = e)
    (hwidth : e.width = s.length) (hlegal : e.isLegal = true) (ht : Closes d t) :
    Closes d ('\\' :: (s ++ t)) := by
  subst hread
  refine .escape hlegal ?_
  rw [hwidth, List.drop_left]
  exact ht

/-- The decoder finds the character of an escape sequence and goes on behind the sequence. -/
theorem ofItems_escape_append {s t : Text} {e : Escape} {c : Char}
    (hread : Escape.read (s ++ t) = e) (hwidth : e.width = s.length)
    (hdenoted : ofEscape e = .ok c) : ofItems ('\\' :: (s ++ t)) = (ofItems t).map (c :: ·) := by
  rw [ofItems_escape, hread, hdenoted, hwidth, List.drop_left]
  rfl

namespace CodePoint

theorem numbered_digits (number : CodePoint) : numbered number.digits = .ok number.denoted :=
  numbered_of_valueOf number.ne_nil number.isHexDigit number.valueOf_digits

/-- The character that has a number is denoted by that number. -/
def ofChar (c : Char) : CodePoint :=
  have h := Radix.natOf?_eq_some_iff.1 (Radix.natOf?_hexOfNat c.toNat)
  ⟨Text.hexOfNat c.toNat, c, h.1, h.2.1, h.2.2⟩

end CodePoint

/-! ## Items -/

namespace Item

theorem read_codePoint {number : CodePoint}
    {length : number.digits.length = 4 ∨ number.digits.length = 5} {t : Text}
    (hfits : (codePoint number length).FitsBefore t) :
    Escape.read ('u' :: (number.digits ++ t)) = .codePoint number.digits := by
  refine Escape.read_codePoint number.isHexDigit ?_ ?_ ?_
  · rcases length with h | h <;> rw [h] <;> decide
  · rcases length with h | h <;> rw [h] <;> decide
  · intro hlt
    exact hfits (length.resolve_right (Nat.ne_of_lt hlt))

/-- The scan gets over an item and is as deep in groups as before. -/
theorem closes_append {item : Item} {d : Int} {t : Text} (hfits : item.FitsBefore t)
    (ht : Closes d t) : Closes d (item.text ++ t) := by
  cases item with
  | plain c free => exact .ordinary free ht
  | mark m denoted listed =>
    exact closes_escape (s := [m]) (Escape.read_mark listed t) rfl rfl ht
  | codePoint number length =>
    exact closes_escape (s := 'u' :: number.digits) (read_codePoint hfits) rfl rfl ht
  | group number =>
    -- the group is one level down, and its closing brace leads back up
    have hclose : Closes (d + 1) ('\x7d' :: t) := .closing ((Int.add_sub_cancel d 1).symm ▸ ht)
    have hfree := Lexeme.not_mem_reserved_of_digits number.isHexDigit
    simpa [text] using Closes.opening ((Lexeme.closes_append_iff hfree).2 hclose)

/-- The decoder finds the character of an item and goes on behind the item. -/
theorem ofItems_append {item : Item} {t : Text} (hfits : item.FitsBefore t) :
    ofItems (item.text ++ t) = (ofItems t).map (item.denoted :: ·) := by
  cases item with
  | plain c free =>
    obtain ⟨hescape, -, hopen, -, -⟩ := Lexeme.not_mem_reserved_iff.1 free
    exact ofItems_self hescape hopen t
  | mark m denoted listed =>
    exact ofItems_escape_append (s := [m]) (Escape.read_mark listed t) rfl rfl
  | codePoint number length =>
    exact ofItems_escape_append (s := 'u' :: number.digits) (read_codePoint hfits) rfl
      number.numbered_digits
  | group number =>
    have hgroup := group_append (Lexeme.not_mem_reserved_of_digits number.isHexDigit) t
    rw [List.cons_append, List.cons_append] at hgroup
    have htext : (Item.group number).text ++ t =
        '\x7b' :: '0' :: 'x' :: (number.digits ++ '\x7d' :: t) := by
      simp [text]
    rw [htext, ofItems_group, hgroup, ofGroup_digits number.ne_nil number.isHexDigit,
      number.numbered_digits]
    rfl

/-- A character as it stands if it can, and otherwise its number in a group. -/
def ofChar (c : Char) : Item :=
  if h : c ∈ reserved then group (.ofChar c) else plain c h

theorem denoted_ofChar (c : Char) : (ofChar c).denoted = c := by
  unfold ofChar
  split <;> rfl

theorem fitsBefore_ofChar (c : Char) (t : Text) : (ofChar c).FitsBefore t := by
  unfold ofChar
  split <;> exact trivial

end Item

/-! ## Literals -/

theorem closes_written {items : List Item} (h : Separated items) : Closes 0 (written items) := by
  induction items with
  | nil => exact .closed
  | cons item items ih =>
    obtain ⟨hfits, hitems⟩ := h
    exact Item.closes_append hfits (ih hitems)

theorem ofItems_written {items : List Item} (h : Separated items) :
    ofItems (written items) = .ok (items.map Item.denoted) := by
  induction items with
  | nil => exact ofItems_nil
  | cons item items ih =>
    obtain ⟨hfits, hitems⟩ := h
    rw [written, List.flatMap_cons, ← written, Item.ofItems_append hfits, ih hitems]
    rfl

theorem separated_ofChar (t : Text) : Separated (t.map Item.ofChar) := by
  induction t with
  | nil => exact trivial
  | cons c t ih => exact ⟨Item.fitsBefore_ofChar c _, ih⟩

/-- **What is written in a literal reads back.** Wherever a quote, items and another quote are ahead
of a reader, the next piece is a string literal with just that text, whatever follows, and its value
are the characters of the items in their order. And items can be found for every text. -/
theorem reads_back :
    (∀ items : List Item, Separated items → ∀ (r : Reader) (rest : Text),
      r.ahead = quoted (written items) ++ rest →
        r.readPiece.1 = .token ⟨.stringLiteral, quoted (written items),
          .ofText r.position (quoted (written items))⟩ ∧
        r.readPiece.2.ahead = rest ∧
        value (quoted (written items)) = .ok (items.map Item.denoted)) ∧
    ∀ t : Text, ∃ items : List Item, Separated items ∧ items.map Item.denoted = t := by
  constructor
  · intro items h r rest hahead
    have hlexeme := Lexeme.ofText?_eq_stringLiteral_iff_closes.2
      ⟨written items, rest, hahead, rfl, closes_written h⟩
    have htext : r.ahead.take (quoted (written items)).length = quoted (written items) := by
      rw [hahead, List.take_left]
    refine ⟨?_, ?_, (value_quoted _).trans (ofItems_written h)⟩
    · rw [Reader.readPiece_of_ofText? hlexeme, Reader.piece]
      dsimp only
      rw [htext]
    · rw [Reader.readPiece_of_ofText? hlexeme, Reader.skip, hahead]
      exact List.drop_left
  · intro t
    refine ⟨t.map Item.ofChar, separated_ofChar t, ?_⟩
    rw [List.map_map]
    exact (List.map_congr_left fun c _ => Item.denoted_ofChar c).trans (List.map_id t)

/-- The ways to write a character side by side, and behind a code point of four digits a letter that
is no digit. -/
def sampler : List Item :=
  [.plain 'é' (by decide), .mark 'v' '\x0b' (by decide),
   .codePoint ⟨"0041".toList, 'A', by decide, List.all_eq_true.1 (by decide), by decide⟩ (Or.inl rfl),
   .plain 'g' (by decide),
   .group ⟨"0001F600".toList, '😀', by decide, List.all_eq_true.1 (by decide), by decide⟩,
   .codePoint ⟨"1f600".toList, '😀', by decide, List.all_eq_true.1 (by decide), by decide⟩ (Or.inr rfl),
   .plain '7' (by decide)]

theorem reads_back_sampler :
    Separated sampler ∧
      (Reader.ofText (quoted (written sampler) ++ "+\"".toList)).readPiece.1 =
        .token ⟨.stringLiteral, quoted (written sampler), ⟨⟨1, 0⟩, ⟨1, 32⟩⟩⟩ ∧
      value (quoted (written sampler)) = .ok "é\x0bAg😀😀7".toList := by
  have h : Separated sampler := by decide
  obtain ⟨hpiece, -, hvalue⟩ := reads_back.1 sampler h (.ofText _) "+\"".toList rfl
  exact ⟨h, hpiece, hvalue⟩

end AngleLexer.StringLiteral
