import AngleLexer.CommandLine.Run
import AngleLexer.Proofs.Report.Unbroken
import Mathlib.Algebra.BigOperators.Group.List.Lemmas
import Mathlib.Data.List.Induction

/-!
# The lines of a listing

What the listing for people prints comes apart into the lines that it was put together from, since none
of them breaks (`Listing.splitOnP_text`). The kinds in its summary stand in the order of their first
occurrence (`eraseDups_pairwise`), and as every token is of one kind, their numbers make up the number of
tokens (`Listing.sum_shownAs`). So the output can be read line by line
(`CommandLine.lines_of_tokens_output`).
-/

namespace AngleLexer

/-! ## The order of first occurrence -/

/-- Without repetitions, the members of a list stand in the order of their first occurrence. -/
theorem eraseDups_pairwise {α : Type} [DecidableEq α] (l : List α) :
    l.eraseDups.Pairwise fun a b => l.idxOf a < l.idxOf b := by
  induction l using List.reverseRecOn with
  | nil => simp
  | append_singleton l a ih =>
    have hbefore : l.eraseDups.Pairwise fun a' b => (l ++ [a]).idxOf a' < (l ++ [a]).idxOf b := by
      refine ih.imp_of_mem fun {b c} hb hc hlt => ?_
      rw [List.mem_eraseDups] at hb hc
      rwa [List.idxOf_append_of_mem hb, List.idxOf_append_of_mem hc]
    by_cases ha : a ∈ l
    · have hnone : (l ++ [a]).eraseDups = l.eraseDups := by
        simp [List.eraseDups_append, List.removeAll, ha]
      rwa [hnone]
    · -- a new member comes last
      have hlast : (l ++ [a]).eraseDups = l.eraseDups ++ [a] := by
        simp [List.eraseDups_append, List.removeAll, ha, List.eraseDups_cons]
      rw [hlast, List.pairwise_append]
      refine ⟨hbefore, List.pairwise_singleton _ _, fun b hb c hc => ?_⟩
      rw [List.mem_eraseDups] at hb
      rw [List.mem_singleton.1 hc, List.idxOf_append_of_mem hb, List.idxOf_append_of_notMem ha]
      exact Nat.lt_of_lt_of_le (List.idxOf_lt_length_of_mem hb) (Nat.le_add_right _ _)

theorem nodup_eraseDups {α : Type} [DecidableEq α] (l : List α) : l.eraseDups.Nodup :=
  (eraseDups_pairwise l).imp fun hlt heq => absurd (heq ▸ hlt) (lt_irrefl _)

/-- The numbers of all members make up the length. -/
theorem sum_count_eraseDups {α : Type} [DecidableEq α] (l : List α) :
    (l.eraseDups.map fun a => l.count a).sum = l.length := by
  have hperm : l.eraseDups.Perm l.dedup :=
    (List.perm_ext_iff_of_nodup (nodup_eraseDups l) l.nodup_dedup).2 fun a => by
      rw [List.mem_eraseDups, List.mem_dedup]
  rw [(hperm.map _).sum_eq, List.sum_map_count_dedup_eq_length]

/-- A name belongs to one kind only. -/
theorem Kind.name_inj {j k : Kind} : j.name.toList = k.name.toList ↔ j = k := by
  -- bytes read as one number are compared much faster than strings
  have hnodup : (all.map fun k =>
      k.name.toByteArray.data.toList.foldl (fun n b => n * 256 + b.toNat) 0).Nodup := by
    decide +kernel
  refine ⟨fun h => List.inj_on_of_nodup_map hnodup j.mem_all k.mem_all ?_, fun h => h ▸ rfl⟩
  rw [String.toList_inj.1 h]

namespace Listing

/-! ## What a summary says -/

/-- The kinds that occur among tokens, each of them once. -/
structure IsKindsOf (tokens : List Token) (kinds : List Kind) : Prop where
  /-- they are those that occur -/
  mem_iff : ∀ k, k ∈ kinds ↔ ∃ t ∈ tokens, t.kind = k
  /-- one stands before another if it occurs before the other does, so none stands twice -/
  ordered : kinds.Pairwise fun j k =>
    (tokens.map Token.kind).idxOf j < (tokens.map Token.kind).idxOf k

/-- How many lines show a kind in their second column. -/
def shownAs (k : Kind) (lines : List Text) : Nat :=
  lines.countP fun line => column 1 line == k.name.toList

variable (tokens : List Token)

theorem isKindsOf_eraseDups : IsKindsOf tokens (tokens.map Token.kind).eraseDups where
  mem_iff k := by rw [List.mem_eraseDups, List.mem_map]
  ordered := eraseDups_pairwise _

theorem shownAs_tokenLine (k : Kind) :
    shownAs k (tokens.map tokenLine) = (tokens.map Token.kind).count k := by
  rw [shownAs, List.countP_map, List.count_eq_countP, List.countP_map]
  refine List.countP_congr fun t _ => ?_
  rw [Function.comp_apply, Function.comp_apply, column_tokenLine, beq_iff_eq, beq_iff_eq, Kind.name_inj]

/-- The numbers of all kinds make up the number of tokens. -/
theorem sum_shownAs : (((tokens.map Token.kind).eraseDups).map fun k =>
    shownAs k (tokens.map tokenLine)).sum = tokens.length := by
  simp only [shownAs_tokenLine]
  rw [sum_count_eraseDups, List.length_map]

/-! ## The output -/

theorem splitOnP_flatMap {isEnd : Char → Bool} (hfeed : isEnd '\n' = true) {ls : List Text}
    (h : ∀ line ∈ ls, ∀ c ∈ line, isEnd c = false) :
    (ls.flatMap (· ++ ['\n'])).splitOnP isEnd = ls ++ [[]] := by
  induction ls with
  | nil => rfl
  | cons line ls ih =>
    obtain ⟨hline, hls⟩ := List.forall_mem_cons.1 h
    rw [List.flatMap_cons, List.append_assoc, List.singleton_append,
      List.splitOnP_append_cons_of_forall_mem hline _ hfeed, ih hls, List.cons_append]

/-- **A listing comes apart into its lines**, whichever line breaks end a line besides the line feed. -/
theorem splitOnP_text {isEnd : Char → Bool} (hfeed : isEnd '\n' = true)
    (hbreak : ∀ c, isEnd c = true → isLineBreak c = true) (options : ListingOptions) (source : Text) :
    (text options source).splitOnP isEnd = lines options source ++ [[]] := by
  refine splitOnP_flatMap hfeed fun line hline c hc => Bool.not_eq_true _ ▸ fun hend => ?_
  have hnone := unbroken_of_mem_lines hline c hc
  rw [hbreak c hend] at hnone
  cases hnone

example : ((text ⟨true, true⟩ "\"\\n\"//\u2028\r".toList).splitOnP isLineBreak).length = 7 := by
  decide +kernel

end Listing

namespace CommandLine

open Listing

/-- **The listing for people** has a line for each token under its heading; then, if they are wanted, one
for each comment under theirs; and then, if the summary is wanted, one for each kind that occurs, in the
order of first occurrence, with the number of the lines above that show it. These numbers make up the
number of tokens. Nothing else ends a line, whichever of the line breaks are taken for the end of one. -/
theorem lines_of_tokens_output (source : Text) (input : Input) (options : ListingOptions) :
    ∃ (output : Text) (tokenLines : List Text) (kinds : List Kind),
      (Invocation.run (.tokens input false options)).respond (some source) = .success output ∧
      tokenLines = (Scanner.ofText source).tokens.1.map tokenLine ∧
      IsKindsOf (Scanner.ofText source).tokens.1 kinds ∧
      (kinds.map fun k => shownAs k tokenLines).sum = (Scanner.ofText source).tokens.1.length ∧
      ∀ isEnd : Char → Bool, isEnd '\n' = true → (∀ c, isEnd c = true → isLineBreak c = true) →
        output.splitOnP isEnd =
          heading "Tokens" :: tokenLines ++
            (if options.comments then
              heading "Comments" :: (Scanner.ofText source).tokens.2.comments.map commentLine
            else []) ++
            (if options.summary then
              heading "Summary" :: kinds.map fun k => summaryLine (k, shownAs k tokenLines)
            else []) ++ [[]] := by
  refine ⟨_, _, _, rfl, rfl, isKindsOf_eraseDups _, sum_shownAs _, fun isEnd hfeed hbreak => ?_⟩
  rw [splitOnP_text hfeed hbreak, lines]
  simp only [summary, List.map_map, shownAs_tokenLine]
  rfl

end CommandLine

end AngleLexer
