import AngleLexer.Report.Listing

/-!
# The command line

There are two commands. `tokens` lists a source, and `check` looks for its faults; both take one
input, a path or `-` for the standard input. Switches may stand anywhere around the input, and
`--` ends them: what follows is input, whatever it begins with.

Arguments are read from left to right, and the first one that settles the matter does so. A call
for help or for the version is answered even if more is wrong further on, and a mistake is reported
even if a call for help follows it. Each switch may be given once; the ones for all commands may be
given once before the command and once after it.

`CommandLine.parse` turns the arguments into an `Invocation`.
-/

namespace AngleLexer.CommandLine

/-! ## What can be asked for -/

/-- Where a source is read from. -/
inductive Input where
  /-- the standard input -/
  | stdin
  /-- a file -/
  | file (path : Text)
deriving DecidableEq

/-- The input that an argument names. A path that consists of `-` stands for the standard input;
separators at its end, and dots between them, do not make it another path. -/
def Input.ofPath (path : Text) : Input :=
  match path.splitOn '/' with
  | ['-'] :: rest => if rest.all fun s => s = [] || s = ['.'] then .stdin else .file path
  | _ => .file path

/-- A command with its input. -/
inductive Command where
  /-- list a source, as JSON or for people -/
  | tokens (input : Input) (json : Bool) (options : ListingOptions)
  /-- look for the faults of a source -/
  | check (input : Input)
deriving DecidableEq

/-- What the arguments ask for. -/
inductive Invocation where
  /-- an account of the commands and switches -/
  | help
  /-- the version of the program -/
  | version
  /-- a command -/
  | run (command : Command)
  /-- nothing that the program knows -/
  | misuse
deriving DecidableEq

/-! ## Switches -/

/-- The switches. -/
inductive Switch where
  /-- report on the work that is done -/
  | verbose
  /-- ask for help -/
  | help
  /-- ask for the version -/
  | version
  /-- list as JSON -/
  | json
  /-- list the comments too -/
  | comments
  /-- list the numbers of tokens too -/
  | summary
deriving DecidableEq

namespace Switch

/-- The switch of a given name. -/
def ofName? (name : Text) : Option Switch :=
  match String.ofList name with
  | "verbose" => some verbose
  | "help" => some help
  | "version" => some version
  | "json" => some json
  | "comments" => some comments
  | "summary" => some summary
  | _ => none

/-- The switch of a given letter. Those of a single command have none. -/
def ofLetter? : Char → Option Switch
  | 'v' => some verbose
  | 'h' => some help
  | 'V' => some version
  | _ => none

end Switch

/-- Turn on one more switch, where only some are known and some are on already. A call for help or
for the version, and a mistake, end the matter. -/
def turnOn (known on : List Switch) : Option Switch → Except Invocation (List Switch)
  | none => .error .misuse
  | some s =>
    if s ∉ known ∨ s ∈ on then .error .misuse
    else
      match s with
      | .help => .error .help
      | .version => .error .version
      | s => .ok (s :: on)

/-! ## Arguments -/

/-- How a single argument reads. -/
inductive Argument where
  /-- a command or an input -/
  | plain (text : Text)
  /-- the mark that ends the switches -/
  | separator
  /-- one switch or several, of which some may not exist -/
  | switches (switches : List (Option Switch))
deriving DecidableEq

/-- The reading of an argument: two hyphens come before the name of a switch, and one before the
letters of switches. A single hyphen alone is no switch. -/
def Argument.ofText : Text → Argument
  | ['-', '-'] => .separator
  | '-' :: '-' :: name => .switches [Switch.ofName? name]
  | '-' :: c :: letters => .switches ((c :: letters).map Switch.ofLetter?)
  | t => .plain t

/-- What was read of the arguments of a command. -/
structure Progress where
  /-- the switches that are on -/
  on : List Switch
  /-- the input, if it was met -/
  input : Option Text
deriving DecidableEq

namespace Progress

/-- Take an argument for the input. There is one input, and its name is not empty. -/
def addInput (p : Progress) (path : Text) : Except Invocation Progress :=
  if p.input.isSome ∨ path = [] then .error .misuse else .ok { p with input := some path }

/-- Read all arguments of a command that knows the given switches. -/
def read (known : List Switch) (p : Progress) : List Text → Except Invocation Progress
  | [] => .ok p
  | a :: rest =>
    match Argument.ofText a with
    | .separator => rest.foldlM addInput p
    | .plain path => do read known (← p.addInput path) rest
    | .switches ws => do read known { p with on := ← ws.foldlM (turnOn known) p.on } rest

end Progress

/-! ## Commands -/

/-- The switches that every command knows. -/
def commonSwitches : List Switch := [.verbose, .help]

/-- The arguments of a command that knows some switches of its own. -/
def parseCommand (own : List Switch) (make : List Switch → Input → Command) (args : List Text) :
    Invocation :=
  match Progress.read (commonSwitches ++ own) ⟨[], none⟩ args with
  | .error invocation => invocation
  | .ok ⟨_, none⟩ => .misuse
  | .ok ⟨on, some path⟩ => .run (make on (Input.ofPath path))

/-- The arguments of `tokens`. -/
def parseTokens : List Text → Invocation :=
  parseCommand [.json, .comments, .summary] fun on input =>
    .tokens input (on.contains .json)
      ⟨on.contains .comments, on.contains .summary⟩

/-- The arguments of `check`. -/
def parseCheck : List Text → Invocation :=
  parseCommand [] fun _ input => .check input

/-- The commands that help can be asked about. -/
def commandNames : List Text := ["tokens".toList, "check".toList, "help".toList]

/-- The arguments of `help`: at most the name of one command. -/
def parseHelp : List Text → Invocation
  | [] => .help
  | [name] => if name ∈ commandNames then .help else .misuse
  | _ => .misuse

/-- The command of a given name, as a reader of its arguments. -/
def command? (name : Text) : Option (List Text → Invocation) :=
  match String.ofList name with
  | "tokens" => some parseTokens
  | "check" => some parseCheck
  | "help" => some parseHelp
  | _ => none

/-- The arguments from the first one that was not read, where some switches are on. -/
def parseFrom (on : List Switch) : List Text → Invocation
  | [] => .misuse
  | a :: rest =>
    match Argument.ofText a with
    | .separator => .misuse
    | .plain name => ((command? name).map fun parse => parse rest).getD .misuse
    | .switches ws =>
      match ws.foldlM (turnOn (.version :: commonSwitches)) on with
      | .error invocation => invocation
      | .ok on => parseFrom on rest

/-- What the arguments of the program ask for. -/
def parse (args : List Text) : Invocation := parseFrom [] args

end AngleLexer.CommandLine
