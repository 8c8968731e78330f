import AngleLexer.CommandLine.Parse
import AngleLexer.Fault.Diagnostic

/-!
# Running an invocation

An invocation may need an input (`Invocation.input?`). Once the input was read, or could not be
read, `Invocation.respond` says all that the program does: what it prints, with which status it
ends, and what it complains about. An input whose bytes are not UTF-8 counts as one that cannot be
read.
-/

namespace AngleLexer.CommandLine

/-- What a run of the program amounts to. -/
structure Outcome where
  /-- the exit status -/
  status : Nat
  /-- what is printed -/
  output : Text
  /-- the faults that are reported -/
  diagnostics : List Diagnostic
  /-- why the run failed, where there is more to say than the usage -/
  complaint : Option Text
deriving DecidableEq

namespace Outcome

/-- A run that prints something and ends well. -/
def success (output : Text) : Outcome := ⟨0, output, [], none⟩

/-- A run that fails for a reason. -/
def failure (diagnostics : List Diagnostic) (complaint : Text) : Outcome :=
  ⟨1, [], diagnostics, some complaint⟩

end Outcome

/-- What is printed for the version. -/
def versionLine : Text := "tessera 0.1.0\n".toList

/-- What is said when an input cannot be read. -/
def Input.complaint : Input → Text
  | stdin => "Failed to read source from stdin".toList
  | file path => "Failed to read source file: ".toList ++ Text.quoted path

namespace Command

/-- The input of a command. -/
def input : Command → Input
  | tokens input _ _ => input
  | check input => input

/-- What a command does with the source that it was given. -/
def respond (source : Text) : Command → Outcome
  | tokens _ true options => .success ((Listing.json options source).pretty ++ ['\n'])
  | tokens _ false options => .success (Listing.text options source)
  | check _ =>
    let faults := source.faults
    if faults.isEmpty then .success "success: No errors found\n".toList
    else
      .failure (faults.map fun f => f.diagnostic [source] 0)
        ("Lexical analysis failed with ".toList ++ Text.ofNat faults.length ++
          " error(s)".toList)

end Command

namespace Invocation

/-- The input that an invocation needs. -/
def input? : Invocation → Option Input
  | run command => some command.input
  | help | version | misuse => none

/-- What the program does, given the source that its input holds if it could be read. -/
def respond (source? : Option Text) : Invocation → Outcome
  | help => .success []
  | version => .success versionLine
  | misuse => ⟨2, [], [], none⟩
  | run command =>
    match source? with
    | none => .failure [] command.input.complaint
    | some source => command.respond source

end Invocation

end AngleLexer.CommandLine
