import AngleLexer.Proofs.Lexeme.Rules
import AngleLexer.Report.Listing

/-!
# Reading a listing

What a listing shows can be read off its lines. Blanks separate the columns of a line
(`Listing.column`), and headings separate the parts of a listing (`Listing.under`). So the kind of a
token is the second column of its line (`Listing.column_tokenLine`), although its text may look like
anything. In the form for programs it is a field of the token.

Counting the tokens that are shown as invalid gives the number of invalid tokens, and the summary
gives the same number, in either form (`Listing.shownInvalid_lines`, `Listing.summedInvalid_lines`,
`Json.shownInvalid_json`, `Json.summedInvalid_json`).
-/

namespace AngleLexer

/-! ## Names of kinds -/

theorem Keyword.mem_all (w : Keyword) : w ∈ all :=
  List.mem_map.2 ⟨⟨w.spelling, w.listed⟩, List.mem_attach _ _, rfl⟩

namespace Kind

theorem mem_all (k : Kind) : k ∈ all := by
  cases k with
  | keyword w => simp [all, w.mem_all]
  | symbol s => simp [all, s.mem_all]
  | _ => simp [all]

/-- Names consist of letters, and only the name of the invalid kind is `Invalid`. -/
theorem name_facts (k : Kind) : k.name.toList ≠ [] ∧ (∀ c ∈ k.name.toList, c.isAlpha = true) ∧
    (k.name.toList = "Invalid".toList ↔ k = .invalid) := by
  have hall : (all.all fun k =>
      !k.name.toList.isEmpty && (k.name.toList.all Char.isAlpha &&
        decide (k.name.toList = "Invalid".toList ↔ k = .invalid))) = true := by
    decide +kernel
  obtain ⟨hne, hrest⟩ := Bool.and_eq_true_iff.1 (List.all_eq_true.1 hall k k.mem_all)
  obtain ⟨hletters, hinvalid⟩ := Bool.and_eq_true_iff.1 hrest
  refine ⟨?_, List.all_eq_true.1 hletters, of_decide_eq_true hinvalid⟩
  intro hnil
  rw [hnil] at hne
  cases hne

theorem name_beq_invalid (k : Kind) : (k.name.toList == "Invalid".toList) = decide (k = .invalid) := by
  rw [Bool.eq_iff_iff, beq_iff_eq, k.name_facts.2.2, decide_eq_true_iff]

end Kind

namespace Listing

/-! ## Columns -/

/-- The column of a line with a given index. There are one or more blanks between two columns, and
there may be some in front of the first one. -/
def column : Nat → Text → Text
  | 0, line => (line.dropWhile (· == ' ')).takeWhile (· != ' ')
  | n + 1, line => column n ((line.dropWhile (· == ' ')).dropWhile (· != ' '))

/-- What can stand in a column. -/
structure IsColumn (w : Text) : Prop where
  /-- there is something -/
  ne_nil : w ≠ []
  /-- it does not come apart -/
  noBlank : ∀ c ∈ w, c ≠ ' '

theorem column_blanks (n k : Nat) (t : Text) :
    column n (List.replicate k ' ' ++ t) = column n t := by
  have hdrop : (List.replicate k ' ' ++ t).dropWhile (· == ' ') = t.dropWhile (· == ' ') :=
    List.dropWhile_append_of_pos fun c hc => beq_iff_eq.2 (List.eq_of_mem_replicate hc)
  cases n <;> rw [column, column, hdrop]

theorem column_blank (n : Nat) (t : Text) : column n (' ' :: t) = column n t :=
  column_blanks n 1 t

namespace IsColumn

variable {w t : Text}

theorem dropWhile_append (hw : IsColumn w) :
    (w ++ t).dropWhile (· == ' ') = w ++ t := by
  obtain ⟨c, rest, rfl⟩ := List.exists_cons_of_ne_nil hw.ne_nil
  rw [List.cons_append, List.dropWhile_cons_of_neg]
  exact fun hc => hw.noBlank c (List.mem_cons_self ..) (beq_iff_eq.1 hc)

theorem column_zero (hw : IsColumn w) (ht : ∀ c ∈ t.head?, c = ' ') : column 0 (w ++ t) = w := by
  rw [column, hw.dropWhile_append]
  exact Text.takeWhile_append_of_stop (fun c hc => bne_iff_ne.2 (hw.noBlank c hc))
    fun c hc => bne_eq_false_iff_eq.2 (ht c hc)

theorem column_succ (hw : IsColumn w) (ht : ∀ c ∈ t.head?, c = ' ') (n : Nat) :
    column (n + 1) (w ++ t) = column n t := by
  rw [column, hw.dropWhile_append,
    List.dropWhile_append_of_pos fun c hc => bne_iff_ne.2 (hw.noBlank c hc)]
  rcases t with _ | ⟨c, t⟩
  · rfl
  · rw [ht c rfl, List.dropWhile_cons_of_neg (by decide)]

end IsColumn

/-- Blanks behind a column end it. -/
theorem head?_blanks (n : Nat) (t : Text) : ∀ c ∈ (List.replicate n ' ' ++ ' ' :: t).head?, c = ' ' := by
  intro c hc
  cases n <;> exact (Option.some.inj hc).symm

/-! ## Lines -/

theorem isColumn_name (k : Kind) : IsColumn k.name.toList where
  ne_nil := k.name_facts.1
  noBlank := by
    rintro c hc rfl
    exact absurd (k.name_facts.2.1 _ hc) (by decide)

theorem isDigit_of_mem_ofNat {n : Nat} {c : Char} (hc : c ∈ Text.ofNat n) : c.isDigit = true :=
  Nat.isDigit_of_mem_toDigits (by decide) (by decide) hc

theorem isColumn_ofNat (n : Nat) : IsColumn (Text.ofNat n) where
  ne_nil := Nat.toDigits_ne_nil
  noBlank := by
    rintro c hc rfl
    exact absurd (isDigit_of_mem_ofNat hc) (by decide)

/-- A place is one column, with a colon between two numbers. -/
theorem exists_place_eq (p : Position) : ∃ a w b, IsColumn w ∧ '=' ∉ w ∧
    place p = List.replicate a ' ' ++ (w ++ List.replicate b ' ') := by
  have hmem : ∀ c ∈ Text.ofNat p.line ++ ':' :: Text.ofNat p.column, c = ':' ∨ c.isDigit = true := by
    intro c hc
    rcases List.mem_append.1 hc with hc | hc
    · exact Or.inr (isDigit_of_mem_ofNat hc)
    · exact (List.mem_cons.1 hc).imp_right isDigit_of_mem_ofNat
  refine ⟨4 - (Text.ofNat p.line).length, Text.ofNat p.line ++ ':' :: Text.ofNat p.column,
    4 - (Text.ofNat p.column).length, ⟨by simp, ?_⟩, ?_, ?_⟩
  · rintro c hc rfl
    exact absurd (hmem _ hc) (by decide)
  · intro hc
    exact absurd (hmem _ hc) (by decide)
  · simp [place, List.leftpad, List.rightpad]

/-- The kind of a token is in the second column of its line. -/
theorem column_tokenLine (t : Token) : column 1 (tokenLine t) = t.kind.name.toList := by
  obtain ⟨a, w, b, hw, -, hplace⟩ := exists_place_eq t.span.first
  have hkind : kindColumn t.kind = t.kind.name.toList ++ List.replicate _ ' ' := rfl
  rw [tokenLine, hplace, hkind]
  simp only [List.append_assoc, List.cons_append]
  rw [column_blanks, hw.column_succ (head?_blanks _ _), column_blanks, column_blank]
  exact (isColumn_name t.kind).column_zero (head?_blanks _ _)

/-- A line of the summary tells a kind and a number. -/
theorem column_summaryLine (k : Kind) (n : Nat) :
    column 0 (summaryLine (k, n)) = k.name.toList ∧ column 1 (summaryLine (k, n)) = Text.ofNat n := by
  have hline : summaryLine (k, n) = k.name.toList ++ (List.replicate _ ' ' ++ ' ' :: Text.ofNat n) :=
    List.append_assoc _ _ _
  rw [hline, (isColumn_name k).column_zero (head?_blanks _ _),
    (isColumn_name k).column_succ (head?_blanks _ _), column_blanks, column_blank]
  have hnumber := (isColumn_ofNat n).column_zero (t := []) fun c hc => nomatch hc
  rw [List.append_nil] at hnumber
  exact ⟨rfl, hnumber⟩

/-! ## Parts -/

/-- The lines under a heading, up to the next one. -/
def under (title : String) (lines : List Text) : List Text :=
  ((lines.dropWhile (· != heading title)).drop 1).takeWhile fun line => line.head? != some '='

/-- What begins with a place is no heading. -/
theorem head?_place_append (p : Position) (t : Text) : (place p ++ t).head? ≠ some '=' := by
  obtain ⟨a, w, b, hw, hmark, hplace⟩ := exists_place_eq p
  rw [hplace]
  rcases a with _ | a
  · obtain ⟨c, rest, rfl⟩ := List.exists_cons_of_ne_nil hw.ne_nil
    intro hc
    exact hmark (Option.some.inj hc ▸ List.mem_cons_self ..)
  · intro hc
    exact absurd (Option.some.inj hc) (by decide)

theorem head?_tokenLine (t : Token) : (tokenLine t).head? ≠ some '=' := by
  rw [tokenLine, List.append_assoc, List.append_assoc]
  exact head?_place_append _ _

theorem head?_commentLine (c : Comment) : (commentLine c).head? ≠ some '=' :=
  head?_place_append _ _

theorem head?_summaryLine (e : Kind × Nat) : (summaryLine e).head? ≠ some '=' := by
  obtain ⟨hne, hletters, -⟩ := e.1.name_facts
  rw [summaryLine, kindColumn, List.rightpad]
  obtain ⟨c, rest, hname⟩ := List.exists_cons_of_ne_nil hne
  rw [hname] at hletters ⊢
  intro hc
  obtain rfl : c = '=' := Option.some.inj hc
  exact absurd (hletters _ (List.mem_cons_self ..)) (by decide)

theorem under_append (title : String) (before body after : List Text)
    (hbefore : heading title ∉ before) (hbody : ∀ line ∈ body, line.head? ≠ some '=')
    (hafter : ∀ line ∈ after.head?, line.head? = some '=') :
    under title (before ++ heading title :: (body ++ after)) = body := by
  have hdrop : (before ++ heading title :: (body ++ after)).dropWhile (· != heading title) =
      heading title :: (body ++ after) := by
    rw [List.dropWhile_append_of_pos, List.dropWhile_cons_of_neg]
    · simp
    · intro line hline
      rw [bne_iff_ne]
      rintro rfl
      exact hbefore hline
  rw [under, hdrop, List.drop_one, List.tail_cons, List.takeWhile_append_of_pos]
  · rcases after with _ | ⟨line, after⟩
    · simp
    · rw [List.takeWhile_cons_of_neg, List.append_nil]
      simp [hafter line rfl]
  · intro line hline
    exact bne_iff_ne.2 (hbody line hline)

/-! ## What a listing shows -/

section

variable (options : ListingOptions) (source : Text)

theorem under_tokens : under "Tokens" (lines options source) =
    (Scanner.ofText source).tokens.1.map tokenLine := by
  rw [lines]
  dsimp only
  rw [List.append_assoc]
  refine under_append "Tokens" [] _ _ List.not_mem_nil ?_ ?_
  · intro line hline
    obtain ⟨t, -, rfl⟩ := List.mem_map.1 hline
    exact head?_tokenLine t
  · intro line hline
    rcases options with ⟨_ | _, _ | _⟩
    all_goals
      cases hline
      try rfl

theorem under_summary (h : options.summary = true) : under "Summary" (lines options source) =
    (summary (Scanner.ofText source).tokens.1).map summaryLine := by
  have hbefore : heading "Summary" ∉
      heading "Tokens" :: (Scanner.ofText source).tokens.1.map tokenLine ++
        if options.comments then
          heading "Comments" :: (Scanner.ofText source).tokens.2.comments.map commentLine
        else [] := by
    intro hmem
    rcases List.mem_append.1 hmem with hmem | hmem
    · rcases List.mem_cons.1 hmem with hheading | hmem
      · exact absurd hheading (by decide)
      · obtain ⟨t, -, ht⟩ := List.mem_map.1 hmem
        exact head?_tokenLine t (ht ▸ rfl)
    · split at hmem
      · rcases List.mem_cons.1 hmem with hheading | hmem
        · exact absurd hheading (by decide)
        · obtain ⟨c, -, hc⟩ := List.mem_map.1 hmem
          exact head?_commentLine c (hc ▸ rfl)
      · cases hmem
  have hbody : ∀ line ∈ (summary (Scanner.ofText source).tokens.1).map summaryLine,
      line.head? ≠ some '=' := by
    intro line hline
    obtain ⟨e, -, rfl⟩ := List.mem_map.1 hline
    exact head?_summaryLine e
  have hunder := under_append _ _ _ [] hbefore hbody fun _ h => nomatch h
  rw [List.append_nil] at hunder
  rw [lines]
  dsimp only
  rw [if_pos h]
  exact hunder

/-- How many tokens the lines of a listing show as invalid. -/
def shownInvalid (lines : List Text) : Nat :=
  (under "Tokens" lines).countP fun line => column 1 line == "Invalid".toList

/-- The number that the summary in the lines of a listing gives for invalid tokens; a kind without a
line does not occur. -/
def summedInvalid (lines : List Text) : Text :=
  (((under "Summary" lines).find? fun line => column 0 line == "Invalid".toList).map
    (column 1)).getD (Text.ofNat 0)

theorem shownInvalid_lines :
    shownInvalid (lines options source) = (Scanner.ofText source).tokens.1.countP Token.isInvalid := by
  rw [shownInvalid, under_tokens, List.countP_map]
  refine List.countP_congr fun t _ => ?_
  rw [Function.comp_apply, column_tokenLine, Kind.name_beq_invalid, Token.isInvalid]

/-- The number that a summary gives for a kind is that of its tokens. -/
theorem getD_find?_summary (ts : List Token) (k : Kind) :
    (((summary ts).find? fun e => decide (e.1 = k)).map Prod.snd).getD 0 =
      ts.countP fun t => decide (t.kind = k) := by
  have hcount : (ts.map Token.kind).count k = ts.countP fun t => decide (t.kind = k) := by
    rw [List.count_eq_countP, List.countP_map]
    rfl
  rw [summary, List.find?_map, ← hcount]
  rcases hfind : (ts.map Token.kind).eraseDups.find? _ with _ | j
  · have hnot : k ∉ ts.map Token.kind := by
      intro hk
      have hk' := List.find?_eq_none.1 hfind k (List.mem_eraseDups.2 hk)
      exact hk' (decide_eq_true rfl)
    rw [List.count_eq_zero_of_not_mem hnot]
    rfl
  · have hj := List.find?_some hfind
    rw [Function.comp_apply, decide_eq_true_iff] at hj
    rw [Option.map_some, ← hj]
    rfl

theorem summedInvalid_lines (h : options.summary = true) :
    summedInvalid (lines options source) =
      Text.ofNat ((Scanner.ofText source).tokens.1.countP Token.isInvalid) := by
  have hline : ((fun line => column 0 line == "Invalid".toList) ∘ summaryLine) =
      fun e => decide (e.1 = .invalid) := by
    funext e
    rw [Function.comp_apply, (column_summaryLine e.1 e.2).1, Kind.name_beq_invalid]
  have hnumber : _ = (Scanner.ofText source).tokens.1.countP Token.isInvalid :=
    getD_find?_summary _ .invalid
  rw [summedInvalid, under_summary options source h, List.find?_map, hline, ← hnumber]
  rcases (summary _).find? _ with _ | ⟨k, n⟩
  · rfl
  · exact (column_summaryLine k n).2

example : shownInvalid (lines ⟨true, true⟩ "\"a\n/**/€".toList) = 2 ∧
    summedInvalid (lines ⟨true, true⟩ "\"a\n/**/€".toList) = ['2'] := by
  decide +kernel

end

end Listing

/-! ## The form for programs -/

namespace Json

/-- The value of a field of an object. -/
def field? (name : String) : Json → Option Json
  | obj fields => (fields.find? fun f => f.1 == name.toList).map Prod.snd
  | _ => none

/-- Whether a token is said to be invalid. -/
def isInvalidToken (token : Json) : Bool :=
  match token.field? "type" with
  | some (.str name) => name == "Invalid".toList
  | _ => false

/-- How many tokens a listing shows as invalid. -/
def shownInvalid (listing : Json) : Nat :=
  match listing.field? "tokens" with
  | some (.arr tokens) => tokens.countP isInvalidToken
  | _ => 0

/-- The number that the summary of a listing gives for invalid tokens; a kind without a field does
not occur. -/
def summedInvalid (listing : Json) : Json :=
  ((listing.field? "summary").bind (field? "Invalid")).getD (.int 0)

theorem field?_record (fields : List (String × Json)) (name : String) :
    (record fields).field? name = (fields.find? fun f => f.1 == name).map Prod.snd := by
  have hname : ((fun f : Text × Json => f.1 == name.toList) ∘ fun f : String × Json =>
      (f.1.toList, f.2)) = fun f => f.1 == name := by
    funext f
    rw [Function.comp_apply, Bool.eq_iff_iff, beq_iff_eq, beq_iff_eq, String.toList_inj]
  rw [record, field?, List.find?_map, hname, Option.map_map]
  rfl

theorem isInvalidToken_toJson (t : Token) : isInvalidToken t.toJson = t.isInvalid := by
  have hfield : t.toJson.field? "type" = some (.str t.kind.name.toList) := by
    rw [Token.toJson, field?_record]
    rfl
  rw [isInvalidToken, hfield]
  exact Kind.name_beq_invalid t.kind

variable (options : ListingOptions) (source : Text)

theorem shownInvalid_json : shownInvalid (Listing.json options source) =
    (Scanner.ofText source).tokens.1.countP Token.isInvalid := by
  have hfield : (Listing.json options source).field? "tokens" =
      some (.arr ((Scanner.ofText source).tokens.1.map Token.toJson)) := by
    rw [Listing.json, field?_record]
    rfl
  rw [shownInvalid, hfield]
  dsimp only
  rw [List.countP_map]
  exact List.countP_congr fun t _ => by rw [Function.comp_apply, isInvalidToken_toJson]

theorem summedInvalid_json (h : options.summary = true) :
    summedInvalid (Listing.json options source) =
      .int ((Scanner.ofText source).tokens.1.countP Token.isInvalid) := by
  have hfield : (Listing.json options source).field? "summary" = some (.obj
      ((Listing.summary (Scanner.ofText source).tokens.1).map fun e =>
        (e.1.name.toList, .int e.2))) := by
    rw [Listing.json, field?_record, h]
    cases options.comments <;> rfl
  have hname : ((fun f : Text × Json => f.1 == "Invalid".toList) ∘
      fun e : Kind × Nat => (e.1.name.toList, Json.int e.2)) = fun e => decide (e.1 = .invalid) := by
    funext e
    exact Kind.name_beq_invalid e.1
  have hnumber : _ = (Scanner.ofText source).tokens.1.countP Token.isInvalid :=
    Listing.getD_find?_summary _ .invalid
  rw [summedInvalid, hfield, Option.bind_some, field?, List.find?_map, hname, ← hnumber]
  rcases (Listing.summary _).find? _ with _ | ⟨k, n⟩ <;> rfl

end Json

end AngleLexer
