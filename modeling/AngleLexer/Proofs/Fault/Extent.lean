import AngleLexer.Proofs.Fault.ByteOffset
import AngleLexer.Proofs.Reader.Tokens
import AngleLexer.Proofs.Text.Bytes

/-!
# What the labels of faults cover

A fault knows its place by lines and columns only. Shown in the source in which it was found, its
label still covers the right bytes: those of the invalid token as a whole, or of its first character
if nothing starts with that (`Fault.range_of_piece`). As tokens lie side by side, the labels of a
source never overlap, and they come in the order of the source (`Fault.labels_cover`).
-/

namespace AngleLexer

/-- The bytes of a file that a label covers. -/
def Label.bytes (l : Label) (file : Text) : ByteArray :=
  file.bytes.extract l.start l.stop

namespace Fault

/-! ## One fault -/

/-- The part of a fault that its label covers: the first character if nothing starts with that, and
otherwise all of it. -/
def marked (f : Fault) : Text :=
  match f.cause with
  | .unknownCharacter => f.text.take 1
  | .openString | .openComment => f.text

theorem marked_ne_nil {f : Fault} (h : f.text ≠ []) : f.marked ≠ [] := by
  unfold marked
  split
  · simpa using h
  · exact h
  · exact h

/-- The label covers a beginning of the fault. -/
theorem exists_text_eq_marked_append (f : Fault) : ∃ rest, f.text = f.marked ++ rest := by
  unfold marked
  split
  · exact ⟨f.text.drop 1, (List.take_append_drop 1 f.text).symm⟩
  · exact ⟨[], (List.append_nil _).symm⟩
  · exact ⟨[], (List.append_nil _).symm⟩

/-- In a file that is there, a fault gets one label. -/
theorem labels_diagnostic {files : List Text} {file : Nat} {source : Text}
    (h : files[file]? = some source) (f : Fault) :
    (f.diagnostic files file).labels =
      [⟨file, (f.range source).1, (f.range source).2, f.labelMessage⟩] := by
  rw [diagnostic, h]
  rfl

/-- The range of a fault that stands behind `before` is that of its marked part. -/
theorem range_eq {f : Fault} {before after : Text} (hne : f.text ≠ [])
    (hspan : f.span = .ofText (Position.start.after before) f.text) :
    f.range (before ++ (f.text ++ after)) =
      (before.utf8Length, (before ++ f.marked).utf8Length) := by
  have hfirst : (before ++ (f.text ++ after)).byteOffset f.span.first = before.utf8Length := by
    rw [Text.byteOffset_eq, hspan]
    exact congrArg _ (Text.upTo_start_after before (f.text ++ after))
  have hlast : (before ++ (f.text ++ after)).byteOffset f.span.last =
      (before ++ f.text).utf8Length := by
    rw [Text.byteOffset_eq, hspan, Span.ofText, ← Position.after_append, ← List.append_assoc]
    exact congrArg _ (Text.upTo_start_after (before ++ f.text) after)
  have hculprit : Text.utf8Length (f.text.take 1) = f.culprit.utf8Size := by
    obtain ⟨c, rest, htext⟩ := List.exists_cons_of_ne_nil hne
    simp [culprit, htext, Text.utf8Length]
  rcases hcause : f.cause with _ | _ | _
  · simp [range, marked, hcause, hfirst, hlast]
  · simp [range, marked, hcause, hfirst, hlast]
  · simp [range, marked, hcause, hfirst, hculprit]

end Fault

/-! ## The faults of a source -/

/-- The fault that a piece is, if it is an invalid token. -/
def Piece.fault? (p : Piece) : Option Fault := p.token?.bind Token.fault?

theorem Text.faults_eq (source : Text) :
    source.faults = (Reader.ofText source).pieces.1.filterMap Piece.fault? := by
  rw [faults, tokens, Reader.tokens, List.filterMap_filterMap]
  rfl

theorem Piece.eq_token_of_fault? {p : Piece} {f : Fault} (h : p.fault? = some f) :
    ∃ t, p = .token t ∧ t.fault? = some f ∧ f.text = p.text ∧ f.span = p.span := by
  obtain ⟨t, htoken, hfault⟩ := Option.bind_eq_some_iff.1 h
  obtain rfl := eq_token_of_token? htoken
  refine ⟨t, rfl, hfault, ?_⟩
  unfold Token.fault? at hfault
  split at hfault
  · cases hfault
    exact ⟨rfl, rfl⟩
  · cases hfault

namespace Reader

/-- The text of the first pieces of a source. -/
def textUpTo (source : Text) (i : Nat) : Text :=
  (((ofText source).pieces.1.take i).map Piece.text).flatten

theorem textUpTo_isPrefix (source : Text) {i j : Nat} (h : i ≤ j) :
    textUpTo source i <+: textUpTo source j := by
  obtain ⟨n, rfl⟩ := Nat.exists_eq_add_of_le h
  rw [textUpTo, textUpTo, List.take_add, List.map_append, List.flatten_append]
  exact List.prefix_append _ _

theorem textUpTo_succ {source : Text} {i : Nat} {p : Piece}
    (h : (ofText source).pieces.1[i]? = some p) :
    textUpTo source (i + 1) = textUpTo source i ++ p.text := by
  obtain ⟨hi, rfl⟩ := List.getElem?_eq_some_iff.1 h
  rw [textUpTo, List.take_succ_eq_append_getElem hi, List.map_append, List.flatten_append]
  simp [textUpTo]

/-- The first pieces are the beginning of the source. -/
theorem textUpTo_isPrefix_source (source : Text) (i : Nat) : textUpTo source i <+: source := by
  refine ⟨(((ofText source).pieces.1.drop i).map Piece.text).flatten, ?_⟩
  rw [textUpTo, ← List.flatten_append, ← List.map_append, List.take_append_drop]
  exact flatten_pieces (ofText source)

end Reader

namespace Fault

open Reader (textUpTo)

/-- The range of a fault in its source begins behind the pieces before it and is that of the marked
part, which is not empty. -/
theorem range_of_piece {source : Text} {i : Nat} {p : Piece} {f : Fault}
    (hp : (Reader.ofText source).pieces.1[i]? = some p) (hf : p.fault? = some f) :
    f.range source =
        ((textUpTo source i).utf8Length, (textUpTo source i ++ f.marked).utf8Length) ∧
      f.marked ≠ [] ∧ (textUpTo source i ++ f.marked) <+: textUpTo source (i + 1) := by
  obtain ⟨t, -, -, htext, hspan⟩ := Piece.eq_token_of_fault? hf
  have htile := Reader.pieces_tile (Reader.ofText source)
  have hne : f.text ≠ [] := htext ▸ htile.text_ne_nil_of_mem (List.mem_of_getElem? hp)
  have hplace : f.span = .ofText (Position.start.after (textUpTo source i)) f.text := by
    rw [hspan, htile.span_getElem? hp, htext]
    rfl
  -- the source is what stands before the piece, the piece, and what stands after it
  obtain ⟨after, hsource⟩ := Reader.textUpTo_isPrefix_source source (i + 1)
  rw [Reader.textUpTo_succ hp, ← htext, List.append_assoc] at hsource
  obtain ⟨rest, hrest⟩ := f.exists_text_eq_marked_append
  refine ⟨?_, marked_ne_nil hne, ?_⟩
  · rw [← range_eq hne hplace, hsource]
  · rw [Reader.textUpTo_succ hp, ← htext, hrest]
    exact (List.prefix_append_right_inj _).2 (List.prefix_append _ _)

/-- Later faults lie behind earlier ones. -/
theorem pairwise_range (source : Text) :
    source.faults.Pairwise fun f g => (f.range source).2 ≤ (g.range source).1 := by
  have hpieces : (Reader.ofText source).pieces.1.Pairwise fun p q =>
      ∀ f, p.fault? = some f → ∀ g, q.fault? = some g →
        (f.range source).2 ≤ (g.range source).1 := by
    rw [List.pairwise_iff_getElem]
    -- the earlier label ends within its piece, and the later one begins behind that
    intro i j hi hj hij f hf g hg
    obtain ⟨hrange, -, hwithin⟩ := range_of_piece (List.getElem?_eq_getElem hi) hf
    obtain ⟨hrange', -, -⟩ := range_of_piece (List.getElem?_eq_getElem hj) hg
    rw [hrange, hrange']
    exact Text.utf8Length_le_of_prefix (hwithin.trans (Reader.textUpTo_isPrefix source hij))
  rw [Text.faults_eq]
  exact hpieces.filterMap Piece.fault? fun _ _ h => h

/-- **What labels cover.** In a file with the source in which it was found, each fault has one
label. The label begins at the byte where the invalid token begins, and covers the bytes of the
token, or those of its first character if nothing starts with that. The labels of several faults do
not overlap and come in the order of the faults. -/
theorem labels_cover {source : Text} {files : List Text} {file : Nat}
    (hfile : files[file]? = some source) :
    (∀ f ∈ source.faults, ∃ (before after : List Piece) (t : Token) (l : Label),
      (Reader.ofText source).pieces.1 = before ++ .token t :: after ∧ t.fault? = some f ∧
      (f.diagnostic files file).labels = [l] ∧ l.file = file ∧
      l.start = (Text.bytes (before.map Piece.text).flatten).size ∧
      l.stop = l.start + f.marked.bytes.size ∧ l.start < l.stop ∧
      l.bytes source = f.marked.bytes) ∧
    (source.faults.flatMap fun f => (f.diagnostic files file).labels).Pairwise fun a b =>
      a.stop ≤ b.start := by
  constructor
  · intro f hf
    rw [Text.faults_eq] at hf
    obtain ⟨p, hmem, hfault⟩ := List.mem_filterMap.1 hf
    obtain ⟨i, hi, rfl⟩ := List.getElem_of_mem hmem
    obtain ⟨t, htoken, ht, -, -⟩ := Piece.eq_token_of_fault? hfault
    obtain ⟨hrange, hne, hwithin⟩ := range_of_piece (List.getElem?_eq_getElem hi) hfault
    have hlabels : (f.diagnostic files file).labels =
        [⟨file, (textUpTo source i).utf8Length, (textUpTo source i ++ f.marked).utf8Length,
          f.labelMessage⟩] := by
      rw [labels_diagnostic hfile, hrange]
    refine ⟨(Reader.ofText source).pieces.1.take i, (Reader.ofText source).pieces.1.drop (i + 1), t,
      _, ?_, ht, hlabels, rfl, (Text.size_bytes _).symm, ?_, ?_, ?_⟩
    · rw [← htoken, ← List.drop_eq_getElem_cons hi, List.take_append_drop]
    · rw [Text.size_bytes]
      exact Text.utf8Length_append _ _
    · rw [Text.utf8Length_append]
      exact Nat.lt_add_of_pos_right (Text.utf8Length_pos hne)
    · exact Text.extract_bytes (hwithin.trans (Reader.textUpTo_isPrefix_source source (i + 1)))
  · have hlabels : (fun f : Fault => (f.diagnostic files file).labels) = fun f =>
        [⟨file, (f.range source).1, (f.range source).2, f.labelMessage⟩] :=
      funext fun f => labels_diagnostic hfile f
    rw [hlabels, ← List.map_eq_flatMap, List.pairwise_map]
    exact pairwise_range source

theorem labels_cover_euro :
    ([[], "\"é\r\n€b".toList] : List Text)[1]? = some "\"é\r\n€b".toList ∧
      ∃ f ∈ Text.faults "\"é\r\n€b".toList, f.text = ['€', 'b'] ∧
        ∃ l, (f.diagnostic [[], "\"é\r\n€b".toList] 1).labels = [l] ∧
          l.bytes "\"é\r\n€b".toList = Text.bytes ['€'] := by
  have hfile : ([[], "\"é\r\n€b".toList] : List Text)[1]? = some "\"é\r\n€b".toList := rfl
  have hf : (⟨.unknownCharacter, ['€', 'b'], ⟨⟨2, 0⟩, ⟨2, 2⟩⟩⟩ : Fault) ∈
      Text.faults "\"é\r\n€b".toList := by decide +kernel
  obtain ⟨-, -, -, l, -, -, hlabels, -, -, -, -, hbytes⟩ := (labels_cover hfile).1 _ hf
  exact ⟨hfile, _, hf, rfl, l, hlabels, hbytes⟩

end Fault

end AngleLexer
