import AngleLexer.Proofs.Number.Denotation
import AngleLexer.Proofs.Report.Columns
import AngleLexer.Proofs.Scanner.Labels
import AngleLexer.Proofs.StringLiteral.Broken
import AngleLexer.Proofs.StringLiteral.Faults
import AngleLexer.Proofs.StringLiteral.Grammar

/-!
# Lines that do not break

No line of a listing has a line break of its own (`Listing.unbroken_of_mem_lines`). Texts and decoded
strings are quoted, and quoting escapes every line break (`Text.unbroken_quoted`). The reason why a
literal has no value is not quoted, but what it shows is taken from the literal
(`StringLiteral.unbroken_of_value`, `NumberLiteral.unbroken_of_value`), and a literal that was read is on
one line. The decoder may look for the parts of a literal in other places than the scan, so this is shown
of every text without a line break.
-/

namespace AngleLexer

/-- A text in which no line ends. -/
def Text.Unbroken (t : Text) : Prop := ∀ c ∈ t, isLineBreak c = false

namespace Text

@[simp] theorem unbroken_nil : Unbroken [] := List.forall_mem_nil _

@[simp] theorem unbroken_cons_iff {c : Char} {t : Text} :
    Unbroken (c :: t) ↔ isLineBreak c = false ∧ t.Unbroken :=
  List.forall_mem_cons

@[simp] theorem unbroken_append_iff {s t : Text} : (s ++ t).Unbroken ↔ s.Unbroken ∧ t.Unbroken :=
  List.forall_mem_append

theorem Unbroken.of_subset {s t : Text} (h : t.Unbroken) (hst : s ⊆ t) : s.Unbroken :=
  fun c hc => h c (hst hc)

theorem unbroken_of_all {t : Text} (h : (t.all fun c => !isLineBreak c) = true) : t.Unbroken :=
  fun c hc => Bool.not_eq_true' _ ▸ List.all_eq_true.1 h c hc

theorem unbroken_ite {p : Prop} [Decidable p] {s t : Text} (hs : s.Unbroken) (ht : t.Unbroken) :
    Unbroken (if p then s else t) := by
  split_ifs
  · exact hs
  · exact ht

theorem unbroken_replicate {c : Char} (hc : isLineBreak c = false) (n : Nat) :
    Unbroken (List.replicate n c) :=
  fun _ hd => List.eq_of_mem_replicate hd ▸ hc

/-- Characters of a sort that no line break is of. -/
theorem unbroken_of_forall {p : Char → Bool} (hnone : (Lexeme.lineBreaks.any p) = false) {t : Text}
    (h : ∀ c ∈ t, p c = true) : t.Unbroken := by
  intro c hc
  refine Bool.not_eq_true _ ▸ fun hbreak => ?_
  exact List.any_eq_false.1 hnone c (Lexeme.isLineBreak_iff_mem.1 hbreak) (h c hc)

/-! ## Numerals and quoted texts -/

theorem unbroken_of_digits {r : Radix} {t : Text} (h : ∀ c ∈ t, r.isDigit c = true) : t.Unbroken :=
  unbroken_of_forall (by cases r <;> decide) h

theorem unbroken_hexOfNat (n : Nat) : (hexOfNat n).Unbroken :=
  unbroken_of_digits (Radix.natOf?_eq_some_iff.1 (Radix.natOf?_hexOfNat n)).2.1

theorem unbroken_ofNat (n : Nat) : (ofNat n).Unbroken :=
  unbroken_of_forall (by decide) fun _ hc => Listing.isDigit_of_mem_ofNat hc

theorem unbroken_ofInt (n : Int) : (ofInt n).Unbroken :=
  unbroken_ite (unbroken_cons_iff.2 ⟨by decide, unbroken_ofNat _⟩) (unbroken_ofNat _)

/-- A character that can be seen is no line break. -/
theorem isLineBreak_of_isVisible {c : Char} (h : isVisible c = true) : isLineBreak c = false :=
  unbroken_of_forall (by decide +kernel) (List.forall_mem_singleton.2 h) c List.mem_cons_self

theorem unbroken_escaped {quote : Char} (hquote : isLineBreak quote = false) (c : Char) :
    (escaped quote c).Unbroken := by
  have hbackslash : isLineBreak '\\' = false := by decide
  unfold escaped
  split_ifs with _ _ _ _ hself hvisible
  · exact unbroken_of_all (by decide)
  · exact unbroken_of_all (by decide)
  · exact unbroken_of_all (by decide)
  · exact unbroken_of_all (by decide)
  · rcases hself with rfl | rfl <;> simp [hbackslash, hquote]
  · simpa using isLineBreak_of_isVisible hvisible
  · simp only [unbroken_append_iff]
    exact ⟨⟨unbroken_of_all (by decide), unbroken_hexOfNat _⟩, unbroken_of_all (by decide)⟩

/-- **A quoted text** is on one line. -/
theorem unbroken_quoted (t : Text) : t.quoted.Unbroken := by
  have hquote : isLineBreak '"' = false := by decide
  have hinside : Unbroken (t.flatMap (escaped '"')) := by
    intro c hc
    obtain ⟨d, -, hc⟩ := List.mem_flatMap.1 hc
    exact unbroken_escaped hquote d c hc
  simp [quoted, hquote, hinside]

end Text

/-! ## Reasons why there is no value -/

/-- What the message about a literal shows of the literal. -/
def LiteralFault.shown : LiteralFault → Text
  | unquoted t | badEscape t | badGroup t | badNumber t => t
  | badCodePoint n => Text.hexOfNat n

/-- A message is on one line if what it shows is. -/
theorem LiteralFault.unbroken_message {fault : LiteralFault} (h : fault.shown.Unbroken) :
    fault.message.Unbroken := by
  unfold message
  cases fault with
  | unquoted _ | badCodePoint _ =>
    exact Text.unbroken_append_iff.2 ⟨Text.unbroken_of_all (by decide +kernel), h⟩
  | badEscape _ | badGroup _ | badNumber _ =>
    exact Text.unbroken_append_iff.2 ⟨Text.unbroken_append_iff.2
      ⟨Text.unbroken_of_all (by decide +kernel), h⟩, Text.unbroken_of_all (by decide)⟩

namespace StringLiteral

variable {t rest : Text} {fault : LiteralFault}

theorem unbroken_of_numbered (h : numbered t = .error fault) (ht : t.Unbroken) :
    fault.shown.Unbroken := by
  rcases hn : Radix.hexadecimal.natOf? t with _ | n
  · rw [numbered, hn] at h
    cases h
    exact ht
  · obtain ⟨hne, hdigits, -⟩ := Radix.natOf?_eq_some_iff.1 hn
    rcases numbered_error_cases hne hdigits h with ⟨rfl, -⟩ | ⟨n, rfl, -⟩
    · exact ht
    · exact Text.unbroken_hexOfNat n

theorem unbroken_of_escape (h : ofEscape (Escape.read t) = .error fault) (ht : t.Unbroken) :
    fault.shown.Unbroken := by
  have hbackslash : isLineBreak '\\' = false := by decide
  cases hread : Escape.read t with
  | simple denoted =>
    rw [hread] at h
    cases h
  | codePoint digits =>
    rw [hread] at h
    obtain ⟨-, hdigits, -, -⟩ := Escape.eq_append_of_read_codePoint hread
    exact unbroken_of_numbered h (Text.unbroken_of_digits hdigits)
  | shortCodePoint digits =>
    rw [hread] at h
    cases h
    obtain ⟨-, hdigits, -⟩ := Escape.eq_append_of_read_shortCodePoint hread
    exact Text.unbroken_cons_iff.2 ⟨hbackslash,
      Text.unbroken_cons_iff.2 ⟨by decide, Text.unbroken_of_digits hdigits⟩⟩
  | unknown c =>
    rw [hread] at h
    cases h
    obtain ⟨⟨rest, rfl⟩, -, -⟩ := Escape.eq_cons_of_read_unknown hread
    exact Text.unbroken_cons_iff.2 ⟨hbackslash,
      Text.unbroken_cons_iff.2 ⟨(Text.unbroken_cons_iff.1 ht).1, Text.unbroken_nil⟩⟩
  | missing =>
    rw [hread] at h
    cases h
    exact Text.unbroken_cons_iff.2 ⟨hbackslash, Text.unbroken_nil⟩

/-- The content of a group is taken from the text. -/
theorem subset_of_group (depth : Nat) (t : Text) : (group depth t).1 ⊆ t := by
  fun_induction group depth t with
  | case1 => exact List.Subset.refl _
  | case2 rest => exact List.nil_subset _
  | case3 rest n ih => exact List.cons_subset_cons _ ih
  | case4 depth c rest _ ih => exact List.cons_subset_cons _ ih

theorem unbroken_of_group (h : ofGroup t = .error fault) (ht : t.Unbroken) : fault.shown.Unbroken := by
  rcases ofGroup_cases t with ⟨digits, rfl, hne, hdigits⟩ | hbad
  · rw [ofGroup_digits hne hdigits] at h
    exact unbroken_of_numbered h (Text.unbroken_of_digits hdigits)
  · rw [hbad] at h
    cases h
    exact ht

theorem unbroken_of_firstItem {c : Char} (h : (firstItem c rest).1 = .error fault)
    (hrest : rest.Unbroken) : fault.shown.Unbroken := by
  unfold firstItem at h
  split_ifs at h
  · exact unbroken_of_escape h hrest
  · exact unbroken_of_group h (hrest.of_subset (subset_of_group 0 rest))

theorem unbroken_of_ofItems (h : ofItems t = .error fault) (ht : t.Unbroken) :
    fault.shown.Unbroken := by
  fun_induction ofItems t with
  | case1 => cases h
  | case2 c rest item fault' =>
    rename_i hitem
    cases h
    exact unbroken_of_firstItem hitem (Text.unbroken_cons_iff.1 ht).2
  | case3 c rest item denoted hitem =>
    rename_i ih
    have hrest := (Text.unbroken_cons_iff.1 ht).2
    refine ih ?_ (hrest.of_subset (suffix_of_firstItem c rest).subset)
    rcases hitems : ofItems item.2 with fault' | characters
    · rw [hitems] at h
      exact h
    · rw [hitems] at h
      cases h

/-- **What is shown of a string literal** without a value has no line break that the literal has not. -/
theorem unbroken_of_value (h : value t = .error fault) (ht : t.Unbroken) : fault.shown.Unbroken := by
  unfold value at h
  split at h
  · cases h
    exact ht
  · rename_i items hitems
    obtain rfl := unquote?_eq_some_iff.1 hitems
    rw [Lexeme.quoted, Text.unbroken_cons_iff, Text.unbroken_append_iff] at ht
    exact unbroken_of_ofItems h ht.2.1

end StringLiteral

theorem NumberLiteral.unbroken_of_value {t : Text} {fault : LiteralFault}
    (h : value t = .error fault) (ht : t.Unbroken) : fault.shown.Unbroken := by
  unfold value at h
  split at h
  · cases h
  · cases h
    exact ht

/-! ## Literals that were read -/

theorem IsNumber.unbroken {t : Text} (h : IsNumber t) : t.Unbroken := by
  have hnone (r : Radix) : (Lexeme.lineBreaks.all fun c =>
      decide (r.isDigit c = false ∧ c ∉ r.marks ∧ c ∉ decimalSigns)) = true := by
    cases r <;> decide
  intro c hc
  refine Bool.not_eq_true _ ▸ fun hbreak => ?_
  have hmem := Lexeme.isLineBreak_iff_mem.1 hbreak
  exact h.not_mem (fun r => of_decide_eq_true (List.all_eq_true.1 (hnone r) c hmem)) hc

theorem Lexeme.Closes.unbroken_quoted {d : Int} {body : Text} (h : Closes d body) :
    (quoted body).Unbroken := by
  have hquote : isLineBreak '"' = false := by decide
  have hbody : body.Unbroken := h.goesThrough.isLineBreak_eq_false
  simp [quoted, hquote, hbody]

/-- A string literal or a number that was read is on one line. -/
theorem Token.unbroken_text {source : Text} {t : Token} (ht : t ∈ source.tokens)
    (hkind : t.kind = .stringLiteral ∨ t.kind = .number) : t.text.Unbroken := by
  rcases hkind with hkind | hkind
  · obtain ⟨body, htext, hcloses⟩ := Text.exists_closes_of_mem_tokens ht hkind
    rw [htext]
    exact hcloses.unbroken_quoted
  · exact (Text.isNumber_of_mem_tokens ht hkind).unbroken

/-! ## Values of numbers -/

namespace Layout

open Text

variable {digits : Text}

theorem unbroken_plain (h : digits.Unbroken) (point : Int) : (plain digits point).Unbroken := by
  have hzero (n : Nat) : Unbroken (List.replicate n '0') := unbroken_replicate (by decide) n
  have htake := h.of_subset (List.take_subset point.toNat digits)
  have hdrop := h.of_subset (List.drop_subset point.toNat digits)
  refine unbroken_ite ?_ ?_
  · exact unbroken_append_iff.2 ⟨unbroken_append_iff.2 ⟨unbroken_of_all (by decide), hzero _⟩, h⟩
  · exact unbroken_append_iff.2 ⟨unbroken_append_iff.2 ⟨htake, hzero _⟩,
      unbroken_cons_iff.2 ⟨by decide, unbroken_ite (unbroken_of_all (by decide)) hdrop⟩⟩

variable {l : Layout} (hmark : l.positiveMark.Unbroken) (hinfinity : l.infinity.Unbroken)

include hmark

theorem unbroken_scientific (h : digits.Unbroken) (exponent : Int) :
    (l.scientific digits exponent).Unbroken := by
  have htake := h.of_subset (List.take_subset 1 digits)
  have hdrop := h.of_subset (List.drop_subset 1 digits)
  have hfraction : Unbroken (if (digits.drop 1).isEmpty then [] else '.' :: digits.drop 1) :=
    unbroken_ite unbroken_nil (unbroken_cons_iff.2 ⟨by decide, hdrop⟩)
  have hletter : Unbroken ('e' :: if exponent < 0 then [] else l.positiveMark) :=
    unbroken_cons_iff.2 ⟨by decide, unbroken_ite unbroken_nil hmark⟩
  unfold scientific
  simp only [unbroken_append_iff]
  exact ⟨⟨⟨htake, hfraction⟩, hletter⟩, unbroken_ofInt exponent⟩

theorem unbroken_decimal (x : Decimal) : (l.decimal x).Unbroken := by
  have hdigits : (significantDigits x.significand).Unbroken := by
    refine (unbroken_ofNat x.significand).of_subset fun c hc => ?_
    have hdrop := (List.dropWhile_sublist (· == '0')).subset (List.mem_reverse.1 hc)
    exact List.mem_reverse.1 hdrop
  exact unbroken_ite (unbroken_plain hdigits _) (unbroken_scientific hmark hdigits _)

include hinfinity

/-- A number is written on one line if the parts of the layout are on one line. -/
theorem unbroken_render (x : Binary64) : (l.render x).Unbroken := by
  have hsign : Unbroken (if x.negative then ['-'] else []) :=
    unbroken_ite (unbroken_of_all (by decide)) unbroken_nil
  refine unbroken_ite ?_ (unbroken_ite ?_ ?_)
  · exact unbroken_append_iff.2 ⟨unbroken_ite hsign unbroken_nil, hinfinity⟩
  · exact unbroken_append_iff.2 ⟨hsign, unbroken_of_all (by decide)⟩
  · exact unbroken_append_iff.2 ⟨hsign, unbroken_decimal hmark _⟩

end Layout

/-! ## Lines -/

namespace Listing

open Text

theorem unbroken_number (n : Number) : (number n).Unbroken := by
  have hclose : Unbroken [')'] := unbroken_of_all (by decide)
  cases n with
  | integer n =>
    exact unbroken_append_iff.2 ⟨unbroken_append_iff.2
      ⟨unbroken_of_all (by decide), unbroken_ofInt n⟩, hclose⟩
  | float x =>
    have hrender : (numberLayout.render x).Unbroken :=
      Layout.unbroken_render unbroken_nil (unbroken_of_all (by decide)) x
    exact unbroken_append_iff.2 ⟨unbroken_append_iff.2
      ⟨unbroken_of_all (by decide), hrender⟩, hclose⟩

/-- A value is shown on one line, and so is the reason why there is none if what it shows of the literal
is on one line. -/
theorem unbroken_outcome {α : Type} {e : Except LiteralFault α} {written : α → Text}
    (hvalue : ∀ a, (written a).Unbroken) (hfault : ∀ fault, e = .error fault → fault.shown.Unbroken) :
    (outcome (e.map written)).Unbroken := by
  rcases e with fault | a
  · have hclose : Unbroken ['>'] := unbroken_of_all (by decide)
    exact unbroken_append_iff.2 ⟨unbroken_cons_iff.2 ⟨by decide,
      LiteralFault.unbroken_message (hfault fault rfl)⟩, hclose⟩
  · exact hvalue a

/-- **What is shown of a literal** is on one line if the literal is. -/
theorem unbroken_value {t : Token} {v : Text}
    (ht : t.kind = .stringLiteral ∨ t.kind = .number → t.text.Unbroken) (h : value? t = some v) :
    v.Unbroken := by
  unfold value? at h
  split at h
  · rename_i hkind
    obtain rfl := Option.some.inj h
    exact unbroken_outcome unbroken_quoted fun fault hfault =>
      StringLiteral.unbroken_of_value hfault (ht (Or.inl hkind))
  · rename_i hkind
    obtain rfl := Option.some.inj h
    exact unbroken_outcome unbroken_number fun fault hfault =>
      NumberLiteral.unbroken_of_value hfault (ht (Or.inr hkind))
  · cases h

theorem unbroken_blanks (n : Nat) : Unbroken (List.replicate n ' ') :=
  unbroken_replicate (by decide) n

theorem unbroken_place (p : Position) : (place p).Unbroken := by
  have hcolon : isLineBreak ':' = false := by decide
  simp [place, List.leftpad, List.rightpad, unbroken_ofNat, hcolon, unbroken_blanks]

theorem unbroken_kindColumn (k : Kind) : (kindColumn k).Unbroken := by
  have hname : Unbroken k.name.toList := unbroken_of_forall (by decide) k.name_facts.2.1
  exact unbroken_append_iff.2 ⟨hname, unbroken_blanks _⟩

/-- **The line of a token** does not break, whatever its text, if it is no literal that breaks. -/
theorem unbroken_tokenLine {t : Token}
    (ht : t.kind = .stringLiteral ∨ t.kind = .number → t.text.Unbroken) : (tokenLine t).Unbroken := by
  have hblank : isLineBreak ' ' = false := by decide
  refine unbroken_append_iff.2 ⟨?_, ?_⟩
  · simp only [unbroken_append_iff, unbroken_cons_iff]
    exact ⟨⟨unbroken_place _, hblank, unbroken_kindColumn _⟩, hblank, unbroken_quoted _⟩
  · rcases hvalue : value? t with _ | v
    · exact unbroken_nil
    · exact unbroken_append_iff.2 ⟨unbroken_of_all (by decide), unbroken_value ht hvalue⟩

theorem unbroken_commentLine (c : Comment) : (commentLine c).Unbroken :=
  unbroken_append_iff.2 ⟨unbroken_place _, unbroken_cons_iff.2 ⟨by decide, unbroken_quoted _⟩⟩

theorem unbroken_summaryLine (e : Kind × Nat) : (summaryLine e).Unbroken :=
  unbroken_append_iff.2 ⟨unbroken_kindColumn _, unbroken_cons_iff.2 ⟨by decide, unbroken_ofNat _⟩⟩

/-- The literals that a scanner hands out are those that were read. -/
theorem unbroken_tokenLine_of_mem {source : Text} {t : Token}
    (ht : t ∈ (Scanner.ofText source).tokens.1) : (tokenLine t).Unbroken := by
  rw [(Scanner.Follows.start source).tokens.1, List.drop_zero] at ht
  refine unbroken_tokenLine fun hkind => ?_
  have hlabel : t.kind ≠ .genericLt := by
    rcases hkind with hkind | hkind <;> rw [hkind] <;> decide
  exact Token.unbroken_text (Scanner.mem_tokens_of_mem_labelled ht hlabel) hkind

/-- **No line of a listing** has a line break of its own. -/
theorem unbroken_of_mem_lines {options : ListingOptions} {source line : Text}
    (h : line ∈ lines options source) : line.Unbroken := by
  have hheading : ∀ title ∈ ["Tokens", "Comments", "Summary"], (heading title).Unbroken := by
    have hall : (["Tokens", "Comments", "Summary"].all fun title =>
        (heading title).all fun c => !isLineBreak c) = true := by decide
    exact fun title htitle => unbroken_of_all (List.all_eq_true.1 hall title htitle)
  simp only [lines, List.mem_append, List.mem_cons] at h
  rcases h with ((rfl | h) | h) | h
  · exact hheading _ (by simp)
  · obtain ⟨t, ht, rfl⟩ := List.mem_map.1 h
    exact unbroken_tokenLine_of_mem ht
  · split at h
    · rcases List.mem_cons.1 h with rfl | h
      · exact hheading _ (by simp)
      · obtain ⟨c, -, rfl⟩ := List.mem_map.1 h
        exact unbroken_commentLine c
    · cases h
  · split at h
    · rcases List.mem_cons.1 h with rfl | h
      · exact hheading _ (by simp)
      · obtain ⟨e, -, rfl⟩ := List.mem_map.1 h
        exact unbroken_summaryLine e
    · cases h

end Listing

end AngleLexer
