import AngleLexer.CommandLine.Run

/-!
# The program

The outer layer of the command line: it reads the input that an invocation needs, prints the
outcome and ends with its status.
-/

namespace AngleLexer.CommandLine

/-- What is printed when the user asks for help or does not keep to it. -/
def usage : String :=
  "Usage: tessera [-v] <COMMAND>\n\n" ++
  "Commands:\n" ++
  "  tokens <INPUT> [--json] [--comments] [--summary]  print the token stream of a source\n" ++
  "  check <INPUT>                                     look for lexical errors in a source\n" ++
  "  help [COMMAND]                                    print this account\n\n" ++
  "INPUT is the path of a file, or - for the standard input.\n"

/-- All bytes of a stream. -/
partial def readAll (stream : IO.FS.Stream) (read : ByteArray) : IO ByteArray := do
  let chunk ← stream.read 65536
  if chunk.isEmpty then return read else readAll stream (read ++ chunk)

/-- The source that an input holds, if it can be read. -/
def Input.load (input : Input) : IO (Option Text) := do
  try
    let bytes ←
      match input with
      | .stdin => readAll (← IO.getStdin) ByteArray.empty
      | .file path => IO.FS.readBinFile (String.ofList path)
    return (String.fromUTF8? bytes).map String.toList
  catch _ => return none

/-- Print what a run amounts to. -/
def Outcome.print (o : Outcome) : IO Unit := do
  let stdout ← IO.getStdout
  stdout.putStr (String.ofList o.output)
  stdout.flush
  for d in o.diagnostics do
    for line in d.message :: d.notes do
      IO.eprintln (String.ofList line)
  for line in o.complaint do
    IO.eprintln ("error: " ++ String.ofList line)

end AngleLexer.CommandLine

open AngleLexer.CommandLine in
/-- Run the program with the given arguments. -/
def main (args : List String) : IO UInt32 := do
  let invocation := parse (args.map String.toList)
  let source? ←
    match invocation.input? with
    | some input => input.load
    | none => pure none
  let outcome := invocation.respond source?
  outcome.print
  match invocation with
  | .help => IO.print usage
  | .misuse => IO.eprint usage
  | _ => pure ()
  return UInt32.ofNat outcome.status
