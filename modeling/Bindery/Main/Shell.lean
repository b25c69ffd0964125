import Bindery.Formatting
import Bindery.Main.Tools

/-!
# Programs to run as formatters

Nothing can be started from here, so a few programs stand in for those of a machine:
`Programs.standard` has a shell for short scripts and the tools that such scripts call. It is one
choice for the parameter `Programs`, no part of the generator, and nothing rests on what it does.
The shell knows no functions, no loops but those over words, and no processes in the background.
-/

set_option autoImplicit false
set_option relaxedAutoImplicit false

namespace Bindery.Shell

/-- What runs the commands inside a command; the flag is set if their failure is looked at. -/
abbrev Runner := Bool → Node → Act Unit

/-! ### Redirections -/

/-- Opens a file to read from, and gives the number of its stream. -/
def openInput (path : Octets) : Act Nat := do
  let state ← get
  let target ← match state.tree.find (Octets.decode path) with
    | .ok (place, .file _) => pure (Target.file place)
    | .ok _ => pure .nothing
    | .error _ => failWith ("cannot open " ++ path ++ ": No such file")
  let (state, number) := state.openStream target false
  set state
  return number

/-- Opens a file to write to, which is made if there is none, and gives the number of its stream. -/
def openOutput (path : Octets) (atEnd : Bool) : Act Nat := do
  let tree := (← get).tree
  let name := Octets.decode path
  let (tree, target) ← match tree.find name with
    | .ok (_, .device _) => pure (tree, Target.nothing)
    | .ok (_, .directory) => failWith ("cannot create " ++ path ++ ": Is a directory")
    | .ok (_, .program _) => failWith ("cannot create " ++ path ++ ": Text file busy")
    | .ok (place, .file _) =>
      pure (if atEnd then tree else tree.set place (.file (.text "")), .file place)
    | .error _ =>
      match tree.target name, tree.overwrite name (.text "") with
      | .ok place, .ok tree => pure (tree, .file place)
      | _, _ => failWith ("cannot create " ++ path ++ ": Directory nonexistent")
  let (state, number) := { ← get with tree }.openStream target atEnd
  set state
  return number

/-- The descriptor that a path stands for. -/
def namedDescriptor? (path : Octets) : Option Nat :=
  [("/dev/stdin", 0), ("/dev/stdout", 1), ("/dev/stderr", 2)].lookup path

/-- Has a descriptor lead where another one does. -/
def copyDescriptor (descriptor source : Nat) : Act Unit := do
  let state ← get
  match state.descriptors.lookup source with
  | some number => set (state.connect descriptor number)
  | none => failWith (toString source ++ ": Bad file descriptor")

/-- Carries out a redirection. -/
def Redirect.perform (redirect : Redirect) : Act Unit := do
  let ⟨descriptor, direction, word⟩ := redirect
  let text ← word.value
  let opened (number : Nat) : Act Unit := modify fun state => state.connect descriptor number
  match direction, namedDescriptor? text with
  | .document, _ =>
    let (state, number) := (← get).openStream (.memory text) false
    set state
    opened number
  | .copy, _ =>
    match text.toList with
    | ['-'] => modify fun state => state.disconnect descriptor
    | [c] =>
      if c.isDigit then copyDescriptor descriptor (ofDigits 10 [c])
      else failWith "Syntax error: Bad fd number"
    | _ => failWith "Syntax error: Bad fd number"
  | _, some source => copyDescriptor descriptor source
  | .input, none => opened (← openInput text)
  | .output, none => opened (← openOutput text false)
  | .append, none => opened (← openOutput text true)

/-- Carries out redirections up to the first that fails, and says whether none did. -/
def redirectAll (redirects : List Redirect) : Act Bool := do
  try
    redirects.forM Redirect.perform
    return true
  catch
    | .fault => return false
    | stop => throw stop

/-- Carries out an act, after which all descriptors lead where they did. -/
def keepingDescriptors {α : Type} (act : Act α) : Act α := do
  let before := (← get).descriptors
  afterwards act fun state => { state with descriptors := before }

/-! ### Commands of the shell itself -/

def changeDirectory : Command := fun arguments => do
  let path := arguments.headD "."
  let state ← get
  match state.tree.find (Octets.decode path) with
  | .ok (place, .directory) =>
    set { state with tree := { state.tree with here := place }, status := 0 }
  | _ => failWith ("can't cd to " ++ path)

def printDirectory : Command := fun _ => do
  say (Octets.encode (FileTree.absolutePath (← get).tree.here) ++ "\n")
  setStatus 0

def exitShell : Command := fun arguments => do
  if let text :: _ := arguments then
    if text = "" || !text.toList.all Char.isDigit then failWith ("Illegal number: " ++ text)
    setStatus (ofDigits 10 text.toList)
  throw .exit

/-- Takes the options in front of some arguments, and gives what follows them. -/
def takeOptions (known : List Char) : List Octets → Act (List Octets)
  | [] => return []
  | argument :: rest => do
    match argument.toList with
    | ['-', '-'] => return rest
    | sign :: letters =>
      if sign ≠ '-' && sign ≠ '+' then return argument :: rest
      if let some letter := letters.find? fun letter => !known.contains letter then
        failWith ("Illegal option -" ++ String.singleton letter)
      modify fun state =>
        let others := state.options.filter fun option => !letters.contains option
        { state with options := if sign = '-' then letters ++ others else others }
      takeOptions known rest
    | [] => return argument :: rest

def setOptions : Command := fun arguments => do
  setStatus 0
  let operands ← takeOptions ['e', 'n', 'u', 'x'] arguments
  if arguments.contains "--" || !operands.isEmpty then
    modify fun state => { state with arguments := operands }

/-- Sets what is to be done at the end. No signal reaches a shell before. -/
def setTrap : Command := fun arguments => do
  setStatus 0
  match arguments with
  | [action, "EXIT"] | [action, "0"] =>
    modify fun state => { state with ending := if action = "-" then none else some action }
  | _ => return ()

/-- Sends a signal, which can only reach the shell itself. -/
def kill : Command := fun arguments => do
  if arguments.getLast? ≠ some processNumber then
    complain "No such process"
    setStatus 1
  else if arguments.head? = some "-0" then setStatus 0
  else throw .killed

/-- The commands that end a shell in which they are used in a wrong way. -/
def specialCommands : List (Octets × Command) :=
  [(":", fun _ => setStatus 0), ("exit", exitShell), ("set", setOptions), ("trap", setTrap)]

/-- Commands that are programs as well. -/
def plainCommands : List (String × Command) :=
  [("[", bracket), ("echo", echo), ("false", fun _ => setStatus 1), ("printf", printf),
   ("pwd", printDirectory), ("test", test), ("true", fun _ => setStatus 0)]

def ownCommands : List (Octets × Command) :=
  [("cd", changeDirectory), ("kill", kill)] ++ plainCommands ++ specialCommands

/-- Runs a command of the shell itself. -/
def runOwn (name : Octets) (command : Command) (arguments : List Octets) : Act Unit := do
  modify fun state => { state with command := some name }
  try afterwards (command arguments) fun state => { state with command := none }
  catch
    | .fault => if (specialCommands.lookup name).isSome then throw .fault
    | stop => throw stop

/-! ### Shells -/

/-- Runs the commands of a script in order; `fuel` exceeds their number. -/
def runCommands (run : Runner) : Nat → Reader → Act Unit
  | 0, _ => return ()
  | fuel + 1, reader => do
    match reader.nextCommand with
    | .error fault =>
      modify fun state => { state with line := fault.line }
      failWith fault.text
    | .ok none => return ()
    | .ok (some (command, after)) =>
      run false command
      runCommands run fuel after

def runScript (run : Runner) (script : Octets) : Act Unit :=
  runCommands run (script.length + 2) ⟨script.toList.filter (· ≠ '\x00'), 1, 0, none⟩

/-- Carries out an act, unless it is killed up to where it stops. -/
def untilStop (act : Act Unit) : Act Unit := do
  try act
  catch
    | .killed => throw .killed
    | _ => return ()

/-- Carries out all that a shell does, what it is to do at its end included. -/
def toEnd (run : Runner) (act : Act Unit) : Act Unit := do
  untilStop act
  let state ← get
  if let some action := state.ending then
    set { state with ending := none }
    untilStop (runScript run action *> setStatus state.status)

/-- Carries out an act in a shell of its own. -/
def inSubshell (run : Runner) (change : State → State) (act : Act Unit) : Act Unit :=
  ExceptT.mk fun state =>
    let (result, after) := (toEnd run act).run (change { state with ending := none })
    (result, state.resume after)

/-- Takes the arguments of a shell, and gives its script. -/
def takeArguments (arguments : List Octets) : Act Octets := do
  let operands ← takeOptions ['c', 'e', 'n', 'u', 'x'] arguments
  let state ← get
  match state.hasOption 'c', operands with
  | true, [] => failWith "-c requires an argument"
  | true, script :: rest =>
    set { state with name := rest.headD state.name, arguments := rest.drop 1 }
    return script
  | false, path :: rest =>
    match state.tree.find (Octets.decode path) with
    | .error _ => failWith ("cannot open " ++ path ++ ": No such file")
    | .ok (_, entry) =>
      set { state with name := path, arguments := rest }
      return match entry with
        | .file content => content.octets
        | _ => ""
  | false, [] => takeInput

def runShell (run : Runner) (arguments : List Octets) : Act Unit :=
  toEnd run do runScript run (← takeArguments arguments)

/-- A shell that has just been started. -/
def State.fresh (name : Octets) (tree : FileTree) (streams : Array Stream)
    (descriptors : List (Nat × Nat)) : State :=
  { tree, streams, descriptors, name, store := [], arguments := [], options := [], status := 0
    line := 0, command := none, ending := none }

/-- Runs another shell. -/
def runOther (run : Runner) (name : Octets) (arguments : List Octets) : Act Unit :=
  ExceptT.mk fun state =>
    let fresh := State.fresh name state.tree state.streams state.descriptors
    let (result, after) := (runShell run arguments).run fresh
    let status := if result matches .error .killed then 137 else after.status % 256
    (.ok (), { state.resume after with status })

/-! ### Programs -/

/-- What a name leads to that can be run, or why there is nothing, with the status that tells so. -/
def locate (tree : FileTree) (name : Octets) : Except (Nat × Octets) Entry :=
  let paths := if name.toList.contains '/' then [name]
    else FileTree.programDirectories.map fun place => FileTree.absolutePath place ++ "/" ++ name
  match paths.findSome? fun path => (tree.find (Octets.decode path)).toOption with
  | none => .error (127, "not found")
  | some (place, entry) =>
    if entry = .directory || !tree.mayRun place then .error (126, "Permission denied")
    else .ok entry

/-- The programs apart from the shell. -/
def programs : List (String × Command) := tools ++ plainCommands

def runProgram (run : Runner) (name : Octets) (arguments : List Octets) : Act Unit := do
  match locate (← get).tree name with
  | .error (status, reason) =>
    complain (name ++ ": " ++ reason)
    setStatus status
  | .ok (.program file) =>
    match programs.lookup file with
    | some command =>
      setStatus 0
      command arguments
    | none => runOther run name arguments
  | .ok _ => runOther run name (name :: arguments)

/-! ### Commands -/

/-- Shows a command before it is run, where errors went before its redirections. -/
def trace (errors : Option Nat) (words : List Octets) : Act Unit := do
  let state ← get
  if state.hasOption 'x' then
    keepingDescriptors do
      if let some number := errors then set (state.connect 2 number)
      put 2 ("+ " ++ " ".intercalate words ++ "\n")

/-- Runs a simple command. What it assigns is for itself only if it calls something. -/
def runSimple (run : Runner) (assignments : List (Octets × Word)) (words : List Word)
    (redirects : List Redirect) : Act Unit := do
  let fields := (← words.mapM Word.fields).flatten
  let name := fields.headD ""
  let isSpecial := (specialCommands.lookup name).isSome
  let errors := (← get).descriptors.lookup 2
  keepingDescriptors do
    if ← redirectAll redirects then
      let before := (← get).store
      let values ← assignments.mapM fun (name, word) => return (name, ← word.value)
      for (name, value) in values do assign name value
      let shown := values.map fun (name, value) => name ++ "=" ++ value
      trace errors (shown ++ fields)
      let arguments := fields.drop 1
      match fields, ownCommands.lookup name with
      | [], _ => setStatus 0
      | _, some command => runOwn name command arguments
      | _, none => runProgram run name arguments
      if !fields.isEmpty && !isSpecial then
        modify fun state => { state with store := before }
    else if isSpecial then throw .fault

/-- Runs the commands of a pipeline, of which each reads what the one before has written. -/
def runPipeline (run : Runner) (tested : Bool) : Option Nat → List Node → Act Unit
  | _, [] => return ()
  | input, command :: commands => do
    let (state, output) := (← get).openStream (.memory "") true
    set state
    let prepare (state : State) : State :=
      let state := match input with
        | some number => state.connect 0 number
        | none => state
      if commands.isEmpty then state else state.connect 1 output
    inSubshell run prepare (run tested command)
    runPipeline run tested (some output) commands

/-- Ends a shell that ends on failures if the last command has failed. -/
def checkFailure (tested : Bool) : Act Unit := do
  let state ← get
  if !tested && state.hasOption 'e' && state.status ≠ 0 then throw .exit

/-- Runs one command. -/
def runCommand (run : Runner) (tested : Bool) : Node → Act Unit
  | .nothing => return ()
  | .simple line assignments words redirects => do
    modify fun state => { state with line }
    runSimple run assignments words redirects
    checkFailure tested
  | .pipeline commands => do
    runPipeline run tested none commands
    checkFailure tested
  | .negation command => do
    run true command
    setStatus (if (← get).status = 0 then 1 else 0)
  | .both first second => do
    run true first
    if (← get).status = 0 then run tested second
  | .either first second => do
    run true first
    if (← get).status ≠ 0 then run tested second
  | .sequence first second => do
    run tested first
    run tested second
  | .group line inner command redirects => do
    modify fun state => { state with line }
    let act : Act Unit := keepingDescriptors do
      if ← redirectAll redirects then run tested command
    if inner then inSubshell run id act else act
    checkFailure tested
  | .choice test ifTrue ifFalse => do
    run true test
    if (← get).status = 0 then run tested ifTrue
    else
      setStatus 0
      run tested ifFalse
  | .each line name words body => do
    modify fun state => { state with line }
    let values := (← words.mapM Word.fields).flatten
    setStatus 0
    for value in values do
      assign name value
      run tested body

/-- What runs commands within commands up to a depth, unless the shell is only to read. -/
def runner : Nat → Runner
  | 0 => fun _ _ => throw .killed
  | depth + 1 => fun tested command => do
    if !(← get).hasOption 'n' then runCommand (runner depth) tested command

/-- How deep commands may stand within each other. -/
def commandDepth : Nat := 2000

/-- The names of all programs. -/
def programNames : List String := "sh" :: programs.map (·.1)

/-- The shell or a tool as a program that reads nothing and of which only the errors are read. -/
def programOf (name : String) : Program := fun path arguments tree =>
  let streams : Array Stream := #[⟨.nothing, 0, false⟩, ⟨.nothing, 0, true⟩, ⟨.memory "", 0, true⟩]
  let state := State.fresh (Octets.encode path) tree streams [(0, 0), (1, 1), (2, 2)]
  let arguments := arguments.map Octets.encode
  let act : Act Unit := match programs.lookup name with
    | some command => command arguments
    | none => runShell (runner commandDepth) arguments
  let (result, after) := act.run state
  let code := if result matches .error .killed then none else some (after.status % 256)
  .ok (⟨code, Octets.decode (after.written 2)⟩, { after.tree with here := tree.here })

end Bindery.Shell

namespace Bindery

/-- The programs that there are. -/
def Programs.standard : Programs := fun name =>
  if Shell.programNames.contains name then some (Shell.programOf name) else none

end Bindery
