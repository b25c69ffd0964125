import Bindery.Config

/-!
# Arguments of the command line

The command line is one of several commands with options in front of it or among its own arguments.
`Invocation.parse` sorts the arguments out. An option is given once at most on either side of the
name of the command, its value follows it directly, after `=`, or as the next argument unless that
starts with a dash; `--` ends the options. Whatever does not fit is a wrong usage. Which shells there
are scripts for that complete arguments, and what these scripts are, is a parameter (`Completions`).
-/

set_option autoImplicit false
set_option relaxedAutoImplicit false

namespace Bindery.CommandLine

/-- What an option is for. -/
inductive Use
  | flag
  | text
  /-- A path, which may not be empty. -/
  | path
  | help
  | version
  deriving DecidableEq

structure OptionForm where
  long : String
  short : Option Char
  use : Use
  deriving DecidableEq

/-- What can stand on one side of the name of a command: options and other arguments, of which there
may be a limit, and of which only some may be accepted. -/
structure Form where
  options : List OptionForm
  operandLimit : Option Nat
  accepts : String → Bool

/-- Why no command is run. -/
inductive Stop
  | wrongUsage
  | help
  | version
  deriving DecidableEq

/-- The arguments read so far. An option that waits for its value is pending. -/
structure Sorted where
  flags : List String
  values : List (String × String)
  operands : List String
  pending : Option OptionForm
  optionsEnded : Bool

namespace Sorted

def none : Sorted := ⟨[], [], [], .none, false⟩

def hasFlag (sorted : Sorted) (long : String) : Bool := sorted.flags.contains long

def value? (sorted : Sorted) (long : String) : Option String := sorted.values.lookup long

/-- Gives an option its value. -/
def setValue (sorted : Sorted) (option : OptionForm) (value : String) : Except Stop Sorted :=
  if (sorted.value? option.long).isSome || (option.use = .path && value = "") then
    .error .wrongUsage
  else .ok { sorted with values := (option.long, value) :: sorted.values, pending := .none }

/-- Takes an option without its value. -/
def useOption (sorted : Sorted) (option : OptionForm) : Except Stop Sorted :=
  match option.use with
  | .flag =>
    if sorted.hasFlag option.long then .error .wrongUsage
    else .ok { sorted with flags := option.long :: sorted.flags }
  | .text | .path => .ok { sorted with pending := some option }
  | .help => .error .help
  | .version => .error .version

/-- Takes an argument that is no option. -/
def addOperand (form : Form) (sorted : Sorted) (operand : String) : Except Stop Sorted :=
  if (form.operandLimit.any fun limit => limit ≤ sorted.operands.length) ||
      !form.accepts operand then .error .wrongUsage
  else .ok { sorted with operands := sorted.operands ++ [operand] }

/-- Takes an option by its long name, with what follows the name in the same argument. -/
def addLong (form : Form) (sorted : Sorted) (argument : List Char) : Except Stop Sorted :=
  let name := String.ofList (argument.takeWhile (· ≠ '='))
  match form.options.find? fun option => option.long = name, argument.dropWhile (· ≠ '=') with
  | .none, _ => .error .wrongUsage
  | some option, [] => sorted.useOption option
  | some option, _ :: value =>
    match option.use with
    | .text | .path => sorted.setValue option (String.ofList value)
    | .flag | .help | .version => .error .wrongUsage

/-- Takes options by their short names, which stand next to each other; the rest of the argument is
the value of the first that has one. -/
def addShort (form : Form) : Sorted → List Char → Except Stop Sorted
  | sorted, [] => .ok sorted
  | sorted, c :: rest =>
    match form.options.find? fun option => option.short = some c with
    | .none => .error .wrongUsage
    | some option =>
      match option.use, rest with
      | .text, '=' :: value | .path, '=' :: value => sorted.setValue option (String.ofList value)
      | .text, d :: value | .path, d :: value =>
        sorted.setValue option (String.ofList (d :: value))
      | _, rest => do addShort form (← sorted.useOption option) rest

/-- Takes one argument. -/
def add (form : Form) (sorted : Sorted) (argument : String) : Except Stop Sorted :=
  if sorted.optionsEnded then addOperand form sorted argument
  else match argument.toList, sorted.pending with
    | '-' :: _ :: _, some _ => .error .wrongUsage
    | '-' :: '-' :: [], .none => .ok { sorted with optionsEnded := true }
    | '-' :: '-' :: long, .none => addLong form sorted long
    | '-' :: c :: short, .none => addShort form sorted (c :: short)
    | _, some option => sorted.setValue option argument
    | _, .none => addOperand form sorted argument

/-- All arguments, if none is left waiting for a value. -/
def finish (sorted : Sorted) : Except Stop Sorted :=
  if sorted.pending.isSome then .error .wrongUsage else .ok sorted

end Sorted

/-! ### Commands -/

/-- The scripts that make a shell complete arguments, by the names of the shells. -/
abbrev Completions := String → Option String

inductive Command
  | generate (modules : List String) (noFormat : Bool)
  | bind (job : Job) (noFormat : Bool)
  | modules
  | mapType (descriptor : String) (function : Option String) (module : String)
  | convertName (identifier : String)
  | completions (script : String)
  deriving DecidableEq

structure Invocation where
  verbose : Bool
  config : Option String
  command : Command
  deriving DecidableEq

/-- The options that every command has. -/
def sharedOptions : List OptionForm :=
  [⟨"verbose", some 'v', .flag⟩, ⟨"no-color", none, .flag⟩, ⟨"config", none, .path⟩,
   ⟨"help", some 'h', .help⟩]

/-- What can stand in front of the name of a command. -/
def leadForm : Form := ⟨⟨"version", some 'V', .version⟩ :: sharedOptions, some 0, fun _ => false⟩

/-- The names of the commands. -/
def commandNames : List String :=
  ["generate", "bind", "modules", "map-type", "convert-name", "completions"]

/-- What can follow the name of a command. -/
def commandForm? (completions : Completions) (name : String) : Option Form :=
  let form (options : List OptionForm) (operandLimit : Option Nat) : Form :=
    ⟨options ++ sharedOptions, operandLimit, fun _ => true⟩
  match name with
  | "generate" => some (form [⟨"no-fmt", none, .flag⟩] none)
  | "bind" =>
    some (form [⟨"module", some 'm', .text⟩, ⟨"input", some 'i', .path⟩,
      ⟨"output", some 'o', .path⟩, ⟨"name", none, .text⟩, ⟨"no-fmt", none, .flag⟩] (some 0))
  | "modules" => some (form [] (some 0))
  | "map-type" => some (form [⟨"function", none, .text⟩, ⟨"module", none, .text⟩] (some 1))
  | "convert-name" => some (form [] (some 1))
  | "completions" => some ⟨sharedOptions, some 1, fun shell => (completions shell).isSome⟩
  | _ => none

/-- What follows a request for help: nothing, or the name of the command that help is wanted on. -/
def isHelpTopic : List String → Bool
  | [] => true
  | [name] => name = "help" || commandNames.contains name
  | _ => false

/-- Splits the arguments at the name of the command. -/
def splitCommand : Sorted → List String → Except Stop (Sorted × String × List String)
  | _, [] => .error .wrongUsage
  | sorted, argument :: rest =>
    if sorted.pending.isNone && !sorted.optionsEnded && commandNames.contains argument then
      .ok (sorted, argument, rest)
    else if sorted.pending.isNone && !sorted.optionsEnded && argument = "help" then
      .error (if isHelpTopic rest then .help else .wrongUsage)
    else match sorted.add leadForm argument with
      | .ok sorted => splitCommand sorted rest
      | .error stop => .error stop

/-- The command of a name with its arguments. -/
def Command.ofSorted (completions : Completions) (name : String) (sorted : Sorted) :
    Except Stop Command :=
  let noFormat := sorted.hasFlag "no-fmt"
  match name, sorted.operands with
  | "generate", names => .ok (.generate names noFormat)
  | "bind", _ =>
    match sorted.value? "module", sorted.value? "input", sorted.value? "output" with
    | some module, some input, some output =>
      .ok (.bind ⟨module, input, output, sorted.value? "name"⟩ noFormat)
    | _, _, _ => .error .wrongUsage
  | "modules", _ => .ok .modules
  | "map-type", [descriptor] =>
    .ok (.mapType descriptor (sorted.value? "function") ((sorted.value? "module").getD "raylib"))
  | "convert-name", [identifier] => .ok (.convertName identifier)
  | "completions", [shell] =>
    match completions shell with
    | some script => .ok (.completions script)
    | none => .error .wrongUsage
  | _, _ => .error .wrongUsage

/-- What is wanted by some arguments. A configuration file given among them comes before that given
by the environment, and one behind the name of the command before one in front of it. -/
def Invocation.parse (completions : Completions) (arguments : List String)
    (environment : Option String) : Except Stop Invocation := do
  let (lead, name, rest) ← splitCommand .none arguments
  match commandForm? completions name with
  | none => throw .wrongUsage
  | some form =>
    let own ← (← rest.foldlM (Sorted.add form) .none).finish
    let command ← Command.ofSorted completions name own
    let near := own.value? "config"
    let far := lead.value? "config"
    if environment = some "" && !(near.isSome && far.isSome) then throw .wrongUsage
    return ⟨lead.hasFlag "verbose" || own.hasFlag "verbose", near <|> far <|> environment, command⟩

end Bindery.CommandLine
