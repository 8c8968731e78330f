import AngleLexer.Proofs.Lexeme.Behind
import AngleLexer.Proofs.Reader.Pieces

/-!
# Reading the beginning of a text

A reader that is given another text ahead reads the same piece, as long as the new text begins with
the text of the piece and what follows stops like what followed before (`readPiece_withAhead`). Two
laws follow from that one step.

* **Cutting off**: the text up to the end of a piece, read on its own, is cut into the same pieces
  (`consumed_reads_same`). The end of the input ends a lexeme like anything that begins a text.
* **Appending**: more text behind a source can change only its last three pieces
  (`pieces_append`). Before them there are at least three characters for a rule to see.
-/

namespace AngleLexer.Reader

/-! ## One call -/

/-- The reader with another text ahead. -/
def withAhead (r : Reader) (t : Text) : Reader := { r with ahead := t }

/-- **A piece does not change** if what follows it is replaced by a text that stops like it, and
does not go on with white space if the piece is some. -/
theorem readPiece_withAhead {r : Reader} {t : Text} (hs : StopsLike r.readPiece.2.ahead t)
    (hspace : t.head? = some '\n' →
      r.readPiece.2.ahead.head? = some '\n' ∨ ∃ u, r.readPiece.1 = .token u) :
    (r.withAhead (r.readPiece.1.text ++ t)).readPiece = (r.readPiece.1, r.readPiece.2.withAhead t) := by
  rcases hl : Lexeme.ofText? r.ahead with _ | l
  · have hnil := Lexeme.ofText?_eq_none_iff.1 hl
    rw [readPiece_of_ahead_eq_nil hnil] at hs ⊢
    obtain rfl := hs.eq_nil hnil
    exact readPiece_of_ahead_eq_nil rfl
  · have hlength := List.length_take_of_le (Lexeme.width_le hl)
    rw [readPiece_of_ofText? hl] at hs hspace ⊢
    have hkept : Lexeme.ofText? (r.ahead.take l.width ++ t) = some l := by
      refine Lexeme.ofText?_replace hs ?_ ?_ hlength.symm
      · intro hcategory hfeed
        refine (hspace hfeed).resolve_right ?_
        rintro ⟨u, hu⟩
        rw [piece, hcategory] at hu
        cases hu
      · exact (congrArg Lexeme.ofText? (List.take_append_drop _ _)).trans hl
    rw [text_piece, readPiece_of_ofText? hkept]
    simp [piece, skip, withAhead, List.take_left' hlength, List.drop_left' hlength]

/-- So it is if the new text goes on like what followed before, as far as a rule can see. -/
theorem readPiece_withAhead_of_take {r : Reader} {t : Text}
    (h : t.take lookahead <+: r.readPiece.2.ahead) :
    (r.withAhead (r.readPiece.1.text ++ t)).readPiece =
      (r.readPiece.1, r.readPiece.2.withAhead t) := by
  refine readPiece_withAhead (.of_take_isPrefix h) fun hfeed => Or.inl ?_
  obtain ⟨t, rfl⟩ := List.head?_eq_some_iff.1 hfeed
  obtain ⟨s, hs⟩ := h
  rw [← hs]
  rfl

/-! ## Cutting off -/

/-- The reader after so many calls. -/
def afterPieces (k : Nat) (r : Reader) : Reader :=
  (r.run (List.replicate k .piece)).2

theorem run_replicate_succ (r : Reader) (k : Nat) :
    r.run (List.replicate (k + 1) .piece) =
      (.piece r.readPiece.1 :: (r.readPiece.2.run (List.replicate k .piece)).1,
        r.readPiece.2.afterPieces k) := rfl

theorem run_append (r : Reader) (qs qs' : List Request) :
    r.run (qs ++ qs') =
      ((r.run qs).1 ++ ((r.run qs).2.run qs').1, ((r.run qs).2.run qs').2) := by
  induction qs generalizing r with
  | nil => rfl
  | cons q qs ih =>
    rw [List.cons_append, run, run, ih]
    rfl

/-- Calls at the end stay there. -/
theorem run_replicate_of_ahead_eq_nil {r : Reader} (h : r.ahead = []) (m : Nat) :
    r.run (List.replicate m .piece) = (List.replicate m (.piece (.token r.endToken)), r) := by
  induction m with
  | zero => rfl
  | succ m ih =>
    rw [run_replicate_succ, afterPieces, readPiece_of_ahead_eq_nil h, ih]
    rfl

/-- Calls leave the source as it is. -/
theorem source_afterPieces (k : Nat) (r : Reader) : (r.afterPieces k).source = r.source := by
  induction k generalizing r with
  | zero => rfl
  | succ k ih => exact (ih r.readPiece.2).trans (source_readPiece r)

theorem ahead_afterPieces_suffix (k : Nat) (r : Reader) : (r.afterPieces k).ahead <:+ r.ahead := by
  induction k generalizing r with
  | zero => exact List.suffix_refl _
  | succ k ih => exact (ih r.readPiece.2).trans ⟨_, readPiece_text_append r⟩

/-- What several calls take is what the first one takes and what the others take. -/
theorem exists_append_of_succ {r : Reader} {k : Nat} {u : Text}
    (hu : u ++ (r.afterPieces (k + 1)).ahead = r.ahead) :
    ∃ v, u = r.readPiece.1.text ++ v ∧ v ++ (r.readPiece.2.afterPieces k).ahead = r.readPiece.2.ahead := by
  obtain ⟨v, hv⟩ := ahead_afterPieces_suffix k r.readPiece.2
  refine ⟨v, ?_, hv⟩
  rw [← readPiece_text_append r, ← hv, ← List.append_assoc] at hu
  exact List.append_cancel_right hu

/-- Calls get the same pieces if only what they take lies ahead. -/
theorem run_withAhead {r : Reader} {k : Nat} {u : Text} (hu : u ++ (r.afterPieces k).ahead = r.ahead) :
    (r.withAhead u).run (List.replicate k .piece) =
      ((r.run (List.replicate k .piece)).1, (r.afterPieces k).withAhead []) := by
  induction k generalizing r u with
  | zero =>
    obtain rfl : u = [] := List.append_left_eq_self.1 hu
    rfl
  | succ k ih =>
    obtain ⟨v, rfl, hv⟩ := exists_append_of_succ hu
    rw [run_replicate_succ, run_replicate_succ, afterPieces,
      readPiece_withAhead_of_take ((List.take_prefix _ v).trans ⟨_, hv⟩), ih hv]
    rfl

/-- Reading to the end of what several calls take gives their pieces before the end. -/
theorem pieces_withAhead {r : Reader} {k : Nat} {u : Text} (hu : u ++ (r.afterPieces k).ahead = r.ahead) :
    (r.withAhead u).pieces = (r.pieces.1.take k, (r.afterPieces k).withAhead []) := by
  induction k generalizing r u with
  | zero =>
    obtain rfl : u = [] := List.append_left_eq_self.1 hu
    exact pieces_of_ahead_eq_nil rfl
  | succ k ih =>
    by_cases h : r.ahead = []
    · have hafter : r.afterPieces (k + 1) = r :=
        congrArg Prod.snd (run_replicate_of_ahead_eq_nil h (k + 1))
      rw [h] at hu
      rw [(List.append_eq_nil_iff.1 hu).1, hafter, pieces_of_ahead_eq_nil h]
      exact pieces_of_ahead_eq_nil rfl
    · obtain ⟨v, rfl, hv⟩ := exists_append_of_succ hu
      have hne : (r.withAhead (r.readPiece.1.text ++ v)).ahead ≠ [] :=
        List.append_ne_nil_of_left_ne_nil (readPiece_text_ne_nil h) v
      rw [pieces_of_ahead_ne_nil hne, pieces_of_ahead_ne_nil h,
        readPiece_withAhead_of_take ((List.take_prefix _ v).trans ⟨_, hv⟩), ih hv]
      rfl

/-- **The text that was read stands for itself**: read as a source of its own, what any number of
calls consumed is cut into the same pieces, at the same places, and then it is over, however often
one asks. No more pieces are found in it, and the same comments are met. -/
theorem consumed_reads_same (source : Text) (k : Nat) :
    let calls := (ofText source).run (List.replicate k .piece)
    (∀ m, (ofText calls.2.consumed).run (List.replicate (k + m) .piece) =
      (calls.1 ++ List.replicate m (.piece (.token calls.2.endToken)),
        { calls.2 with ahead := [] })) ∧
    (ofText calls.2.consumed).pieces.1 = (ofText source).pieces.1.take k ∧
    (ofText calls.2.consumed).pieces.2.comments = calls.2.comments := by
  intro calls
  have hcut : calls.2.consumed ++ calls.2.ahead = source := source_afterPieces k (ofText source)
  refine ⟨fun m => ?_, ?_, ?_⟩
  · have hrun : (ofText calls.2.consumed).run (List.replicate k .piece) =
        (calls.1, calls.2.withAhead []) := run_withAhead hcut
    rw [List.replicate_add, run_append, hrun, run_replicate_of_ahead_eq_nil rfl]
    rfl
  · exact congrArg Prod.fst (pieces_withAhead hcut)
  · exact congrArg (fun onward => onward.2.comments) (pieces_withAhead hcut)

/-! ## Appending -/

/-- At least so many characters are ahead as there are pieces left. -/
theorem length_pieces_le (r : Reader) : r.pieces.1.length ≤ r.ahead.length := by
  have hle := (pieces_tile r).length_le
  rwa [flatten_pieces] at hle

theorem pieces_withAhead_append (r : Reader) (t : Text) :
    r.pieces.1.take (r.pieces.1.length - lookahead) <+: (r.withAhead (r.ahead ++ t)).pieces.1 := by
  induction r using pieces_induction with
  | atEnd r h =>
    rw [pieces_of_ahead_eq_nil h]
    exact List.nil_prefix
  | step r h ih =>
    rw [pieces_of_ahead_ne_nil h, List.length_cons]
    rcases Nat.lt_or_ge r.readPiece.2.pieces.1.length lookahead with hlt | hge
    · -- this piece is one of the last three
      rw [Nat.sub_eq_zero_of_le hlt]
      exact List.nil_prefix
    · have henough : lookahead ≤ r.readPiece.2.ahead.length := Nat.le_trans hge (length_pieces_le _)
      have hseen : (r.readPiece.2.ahead ++ t).take lookahead <+: r.readPiece.2.ahead := by
        rw [List.take_append_of_le_length henough]
        exact List.take_prefix _ _
      have hahead : r.ahead ++ t = r.readPiece.1.text ++ (r.readPiece.2.ahead ++ t) := by
        rw [← List.append_assoc, readPiece_text_append]
      have hne : (r.withAhead (r.ahead ++ t)).ahead ≠ [] := List.append_ne_nil_of_left_ne_nil h t
      rw [pieces_of_ahead_ne_nil hne, hahead, readPiece_withAhead_of_take hseen,
        Nat.sub_add_comm hge, List.take_succ_cons]
      exact List.cons_prefix_cons.2 ⟨rfl, ih⟩

/-- **Appending text changes at most the last three pieces** of a source: those before them are the
first pieces of the longer source as well, and the first calls return them. -/
theorem pieces_append (s t : Text) :
    (ofText s).pieces.1.take ((ofText s).pieces.1.length - 3) <+: (ofText (s ++ t)).pieces.1 ∧
    ((ofText (s ++ t)).run (List.replicate ((ofText s).pieces.1.length - 3) .piece)).1 =
      ((ofText s).pieces.1.take ((ofText s).pieces.1.length - 3)).map .piece := by
  have hkept : _ <+: (ofText (s ++ t)).pieces.1 := pieces_withAhead_append (ofText s) t
  refine ⟨hkept, ?_⟩
  have hlength := List.length_take_of_le (Nat.sub_le (ofText s).pieces.1.length lookahead)
  have hfirst := List.prefix_iff_eq_take.1 (hkept.trans (List.prefix_append _ (List.replicate
    ((ofText s).pieces.1.length - 3) (.token (ofText (s ++ t)).pieces.2.endToken))))
  rw [hlength] at hfirst
  rw [run_replicate_piece]
  exact congrArg _ hfirst.symm

/-- It can change three: a digit makes one number of a number, a name and a plus sign. -/
example :
    ((ofText ['1', 'e', '+']).run [.piece, .piece]).2.ahead = ['+'] ∧
      ((ofText ['1', 'e', '+', '5']).run [.piece]).2.ahead = [] := by
  decide

end AngleLexer.Reader
