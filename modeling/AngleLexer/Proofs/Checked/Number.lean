import AngleLexer.Proofs.Number.Extent
import AngleLexer.Proofs.Text.Bytes

/-!
# Numbers, byte by byte

Numbers are written in ASCII, so their length can be found in the bytes of a text without decoding
them. Whoever does so asks for the bytes behind a mark, a point or an exponent, and there must be such
bytes (`Checked.suffix?`). `Checked.number?` is the length found in this way, or nothing if one of the
bytes asked for is missing or if the text cannot be cut behind the number.

It never fails: on bytes, reading asks only for what it has seen (`Checked.numberIn?_eq`), and the bytes
of a text start with the same number as the text (`Checked.number_bytewise`).
-/

namespace AngleLexer

namespace Text

/-- A text byte by byte: each byte as the character of its number. -/
def bytewise (t : Text) : Text :=
  t.flatMap fun c => (String.utf8EncodeChar c).map Char.ofUInt8

theorem bytewise_cons (c : Char) (t : Text) : bytewise (c :: t) = bytewise [c] ++ t.bytewise := by
  rw [bytewise, bytewise, List.flatMap_cons, List.flatMap_singleton]
  rfl

/-- A text of characters of one byte. -/
def IsAscii (t : Text) : Prop := ∀ c ∈ t, c.utf8Size = 1

theorem IsAscii.utf8Length_eq {t : Text} (h : t.IsAscii) : t.utf8Length = t.length := by
  induction t with
  | nil => rfl
  | cons c t ih =>
    obtain ⟨hc, ht⟩ := List.forall_mem_cons.1 h
    rw [utf8Length, hc, ih ht, List.length_cons, Nat.add_comm]

/-- A character of one byte is its byte. -/
theorem bytewise_singleton {c : Char} (h : c.utf8Size = 1) : bytewise [c] = [c] := by
  have hle : c.toNat ≤ 127 := Char.utf8Size_eq_one_iff.1 h
  have hbyte : Char.ofUInt8 c.val.toUInt8 = c := by
    refine Char.toNat_inj.1 (show c.val.toUInt8.toUInt32.toNat = c.toNat from ?_)
    rw [UInt8.toNat_toUInt32, UInt32.toNat_toUInt8]
    exact Nat.mod_eq_of_lt (Nat.lt_of_le_of_lt hle (by decide))
  rw [bytewise, List.flatMap_singleton, String.utf8EncodeChar_eq_singleton h, List.map_singleton, hbyte]

/-- The first byte of any other character is no character of one byte. -/
theorem exists_bytewise_eq_cons {c : Char} (h : c.utf8Size ≠ 1) :
    ∃ b bs, bytewise [c] = b :: bs ∧ b.utf8Size ≠ 1 := by
  have hc : ¬ c.val.toNat ≤ 127 := fun hle => h (Char.utf8Size_eq_one_iff.2 hle)
  have hfirst {n : Nat} (hn : 128 ≤ n) (hlt : n < 256) : (Char.ofUInt8 (UInt8.ofNat n)).utf8Size ≠ 1 := by
    intro hsize
    have hle : (UInt8.ofNat n).toUInt32.toNat ≤ 127 := Char.utf8Size_eq_one_iff.1 hsize
    rw [UInt8.toNat_toUInt32, UInt8.toNat_ofNat', Nat.mod_eq_of_lt hlt] at hle
    omega
  rw [bytewise, List.flatMap_singleton, String.utf8EncodeChar]
  rw [if_neg hc]
  split
  · exact ⟨_, _, rfl, hfirst (by omega) (by omega)⟩
  split
  · exact ⟨_, _, rfl, hfirst (by omega) (by omega)⟩
  · exact ⟨_, _, rfl, hfirst (by omega) (by omega)⟩

/-- The bytes of a text start with the same ASCII texts as the text. -/
theorem isPrefix_bytewise_iff {s t : Text} (h : s.IsAscii) : s <+: t.bytewise ↔ s <+: t := by
  induction t generalizing s with
  | nil => rfl
  | cons c t ih =>
    rcases s with _ | ⟨d, s⟩
    · exact iff_of_true List.nil_prefix List.nil_prefix
    obtain ⟨hd, hs⟩ := List.forall_mem_cons.1 h
    rw [bytewise_cons]
    by_cases hc : c.utf8Size = 1
    · rw [bytewise_singleton hc, List.singleton_append, List.cons_prefix_cons, List.cons_prefix_cons, ih hs]
    · obtain ⟨b, bs, hbytes, hb⟩ := exists_bytewise_eq_cons hc
      rw [hbytes, List.cons_append, List.cons_prefix_cons, List.cons_prefix_cons]
      refine iff_of_false ?_ ?_
      · rintro ⟨rfl, -⟩
        exact hb hd
      · rintro ⟨rfl, -⟩
        exact hc hd

end Text

/-! ## Numbers are ASCII -/

theorem Radix.utf8Size_of_isDigit {r : Radix} {c : Char} (h : r.isDigit c = true) : c.utf8Size = 1 := by
  have hle (a b : Char) : a ≤ b ↔ a.toNat ≤ b.toNat := Iff.rfl
  refine Char.utf8Size_eq_one_iff.2 (show c.toNat ≤ 127 from ?_)
  simp only [isDigit, digit?, Option.isSome_filter, hexDigit?, hle, Char.reduceToNat] at h
  split at h
  · omega
  split at h
  · omega
  split at h
  · omega
  · cases h

theorem IsNumber.isAscii {t : Text} (h : IsNumber t) : t.IsAscii := by
  have hmarks (r : Radix) : (r.marks.all fun c => decide (c.toNat ≤ 127)) = true := by
    cases r <;> decide
  have hsigns : (decimalSigns.all fun c => decide (c.toNat ≤ 127)) = true := by decide
  intro c hc
  rcases h.mem hc with ⟨r, hdigit | hmark⟩ | hsign
  · exact Radix.utf8Size_of_isDigit hdigit
  · exact Char.utf8Size_eq_one_iff.2 (of_decide_eq_true (List.all_eq_true.1 (hmarks r) c hmark))
  · exact Char.utf8Size_eq_one_iff.2 (of_decide_eq_true (List.all_eq_true.1 hsigns c hsign))

namespace Checked

/-- **The bytes of a text start with the same number** as the text. -/
theorem number_bytewise {c : Char} (hc : isDecimalDigit c = true) (rest : Text) :
    Lexeme.number (Text.bytewise (c :: rest)) = Lexeme.number (c :: rest) := by
  have hsize := Radix.utf8Size_of_isDigit hc
  have hcons : Text.bytewise (c :: rest) = c :: rest.bytewise := by
    rw [Text.bytewise_cons, Text.bytewise_singleton hsize, List.singleton_append]
  have hnumber : LongestPrefix IsNumber (c :: rest) _ := Lexeme.longestPrefix_number hc
  have htake : (c :: rest).take (Lexeme.number (c :: rest)) <+: Text.bytewise (c :: rest) :=
    (Text.isPrefix_bytewise_iff hnumber.word.isAscii).2 (List.take_prefix _ _)
  have hlength := List.length_take_of_le hnumber.le
  have hbytes : LongestPrefix IsNumber (Text.bytewise (c :: rest)) (Lexeme.number (c :: rest)) := by
    refine ⟨hlength ▸ htake.length_le, ?_, ?_⟩
    · rw [← hlength, ← List.prefix_iff_eq_take.1 htake]
      exact hnumber.word
    · intro s hs hp
      exact hnumber.longest s hs ((Text.isPrefix_bytewise_iff hs.isAscii).1 hp)
  rw [hcons] at hbytes ⊢
  exact (Lexeme.longestPrefix_number hc).unique hbytes

/-! ## Reading with checks -/

/-- The bytes behind the first `n`, of which there must be as many. -/
def suffix? (n : Nat) (bytes : Text) : Option Text :=
  if n ≤ bytes.length then some (bytes.drop n) else none

/-- The length of a number with a mark, if the bytes start with one. -/
def marked? (bytes : Text) : Option (Option Nat) :=
  if bytes[0]? = some '0' then
    match bytes[1]?.bind Radix.ofMark? with
    | some radix => do
      let digits := Lexeme.run radix.isDigit (← suffix? 2 bytes)
      return if digits = 0 then none else some (2 + digits)
    | none => some none
  else some none

/-- The length of a number that is known up to a possible fraction. -/
def fraction? (len : Nat) (bytes : Text) : Option Nat :=
  if bytes[len]? = some '.' then do
    let digits := Lexeme.run isDecimalDigit (← suffix? (len + 1) bytes)
    return if digits = 0 then len else len + (1 + digits)
  else some len

/-- The length of a number that is known up to a possible exponent. -/
def exponent? (len : Nat) (bytes : Text) : Option Nat :=
  if bytes[len]? = some 'e' ∨ bytes[len]? = some 'E' then do
    let sign := if bytes[len + 1]? = some '+' ∨ bytes[len + 1]? = some '-' then 1 else 0
    let digits := Lexeme.run isDecimalDigit (← suffix? (len + 1 + sign) bytes)
    return if digits = 0 then len else len + (1 + sign + digits)
  else some len

/-- The length of the number that the bytes start with. -/
def numberIn? (bytes : Text) : Option Nat := do
  match ← marked? bytes with
  | some len => return len
  | none => exponent? (← fraction? (Lexeme.run isDecimalDigit bytes) bytes) bytes

/-- The length of the number that a text starts with, in bytes. Its first digit is known to be there,
and the text must go on with the rest of the number. -/
def number? (t : Text) : Option Nat := do
  let len ← numberIn? t.bytewise
  if len = 0 then none
  else
    let (front, _) ← Text.cut? (1 + (len - 1)) t
    return front.utf8Length

/-! ## The checks succeed -/

theorem suffix?_of_drop {n : Nat} {bytes rest : Text} {c : Char} (h : bytes.drop n = c :: rest) :
    bytes[n]? = some c ∧ suffix? (n + 1) bytes = some rest := by
  have hget : bytes[n]? = some c := by rw [← List.head?_drop, h, List.head?_cons]
  have hlt : n < bytes.length := (List.getElem?_eq_some_iff.1 hget).1
  refine ⟨hget, ?_⟩
  rw [suffix?, if_pos (show n + 1 ≤ bytes.length from hlt), ← List.drop_drop, h, List.drop_one,
    List.tail_cons]

theorem marked?_eq (bytes : Text) : marked? bytes = some (Lexeme.markedNumber? bytes) := by
  rcases bytes with _ | ⟨c, _ | ⟨mark, rest⟩⟩
  · rfl
  · have hnone : Lexeme.markedNumber? [c] = none := by
      rw [Lexeme.markedNumber?]
      intro mark rest h
      cases h
    rw [marked?, hnone]
    split <;> rfl
  rw [marked?, List.getElem?_cons_zero, List.getElem?_cons_succ, List.getElem?_cons_zero, Option.bind_some]
  by_cases hc : c = '0'
  · subst hc
    rw [if_pos rfl, Lexeme.markedNumber?]
    rcases Radix.ofMark? mark with _ | radix
    · rfl
    · dsimp only [Option.bind_some]
      rw [Nat.add_comm _ 2]
      rfl
  · rw [if_neg fun h => hc (Option.some.inj h), Lexeme.markedNumber?]
    rintro mark' rest' h
    exact hc (List.cons.inj h).1

theorem fraction?_eq (len : Nat) (bytes : Text) :
    fraction? len bytes = some (len + Lexeme.fraction (bytes.drop len)) := by
  rcases hdrop : bytes.drop len with _ | ⟨c, rest⟩
  · have hget : bytes[len]? = none := by rw [← List.head?_drop, hdrop, List.head?_nil]
    rw [fraction?, hget, if_neg (by simp)]
    rfl
  obtain ⟨hget, hsuffix⟩ := suffix?_of_drop hdrop
  by_cases hc : c = '.'
  · subst hc
    rw [fraction?, hget, if_pos rfl, hsuffix, Lexeme.fraction]
    dsimp only [Option.bind_eq_bind, Option.bind_some]
    split <;> simp only [Option.pure_def, Option.some.injEq] <;> omega
  · rw [fraction?, hget, if_neg fun h => hc (Option.some.inj h), Lexeme.fraction]
    · rfl
    · rintro rest' h
      exact hc (List.cons.inj h).1

/-- A sign is seen in its first byte. -/
theorem sign_eq (rest : Text) :
    Lexeme.sign rest = if rest[0]? = some '+' ∨ rest[0]? = some '-' then 1 else 0 := by
  unfold Lexeme.sign
  split
  · rfl
  · rfl
  · rename_i hplus hminus
    refine (if_neg ?_).symm
    rw [← List.head?_eq_getElem?]
    rintro (h | h)
    · obtain ⟨u, hu⟩ := List.head?_eq_some_iff.1 h
      exact hplus u hu
    · obtain ⟨u, hu⟩ := List.head?_eq_some_iff.1 h
      exact hminus u hu

theorem exponent?_eq (len : Nat) (bytes : Text) :
    exponent? len bytes = some (len + Lexeme.exponent (bytes.drop len)) := by
  rcases hdrop : bytes.drop len with _ | ⟨c, rest⟩
  · have hget : bytes[len]? = none := by rw [← List.head?_drop, hdrop, List.head?_nil]
    rw [exponent?, hget, if_neg (by simp)]
    rfl
  obtain ⟨hget, hsuffix⟩ := suffix?_of_drop hdrop
  have hlt : len < bytes.length := (List.getElem?_eq_some_iff.1 hget).1
  have hrest : bytes.drop (len + 1) = rest := by
    rw [← List.drop_drop, hdrop, List.drop_one, List.tail_cons]
  -- a sign that was seen has a byte, so there are bytes behind it to ask for
  have hdigits : suffix? (len + 1 + Lexeme.sign rest) bytes = some (rest.drop (Lexeme.sign rest)) := by
    have hle : Lexeme.sign rest ≤ rest.length := (Lexeme.longestPrefix_sign rest).le
    have hlength := congrArg List.length hrest
    rw [List.length_drop] at hlength
    rw [suffix?, if_pos (by omega), ← List.drop_drop, hrest]
  have hsign : (if bytes[len + 1]? = some '+' ∨ bytes[len + 1]? = some '-' then 1 else 0) =
      Lexeme.sign rest := by
    rw [sign_eq, ← hrest, List.getElem?_drop, Nat.add_zero]
  rw [exponent?, hget, hsign, Lexeme.exponent]
  dsimp only
  rw [hdigits]
  simp only [Option.some.injEq]
  split
  · dsimp only [Option.bind_eq_bind, Option.bind_some]
    split
    · rfl
    · exact congrArg some (by omega)
  · rfl

/-- **Reading a number off bytes asks only for bytes that are there.** -/
theorem numberIn?_eq (bytes : Text) : numberIn? bytes = some (Lexeme.number bytes) := by
  rw [numberIn?, marked?_eq, Lexeme.number]
  dsimp only [Option.bind_eq_bind, Option.bind_some]
  rcases Lexeme.markedNumber? bytes with _ | len
  · dsimp only
    rw [fraction?_eq, Option.bind_some, exponent?_eq]
    rfl
  · rfl

/-- Where a text starts with a digit, its number is found, and its length in bytes is as it should be. -/
theorem number?_eq {c : Char} (hc : isDecimalDigit c = true) (rest : Text) :
    number? (c :: rest) =
      some (Text.utf8Length ((c :: rest).take (Lexeme.number (c :: rest)))) := by
  have hnumber : LongestPrefix IsNumber (c :: rest) _ := Lexeme.longestPrefix_number hc
  have hpos : 0 < Lexeme.number (c :: rest) := Lexeme.number_pos hc
  have hlength : Text.utf8Length ((c :: rest).take (Lexeme.number (c :: rest))) =
      Lexeme.number (c :: rest) := by
    rw [hnumber.word.isAscii.utf8Length_eq, List.length_take_of_le hnumber.le]
  have hcut := Text.cut?_append ((c :: rest).take (Lexeme.number (c :: rest)))
    ((c :: rest).drop (Lexeme.number (c :: rest)))
  rw [List.take_append_drop, hlength] at hcut
  have hbump : 1 + (Lexeme.number (c :: rest) - 1) = Lexeme.number (c :: rest) := by omega
  rw [number?, numberIn?_eq, number_bytewise hc]
  dsimp only [Option.bind_eq_bind, Option.bind_some]
  rw [if_neg (Nat.ne_of_gt hpos), hbump, hcut]
  rfl

end Checked

end AngleLexer
