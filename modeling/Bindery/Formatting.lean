import Bindery.Config
import Bindery.FileTree
import Bindery.Log

/-!
# Formatting a generated file

After a file is written, a formatter may be run on it. Which programs there are, and what each does
to the files, is a parameter (`Programs`). Whatever the formatter does, the module counts as
generated: `format` only reports the outcome as a `Formatting`.
-/

set_option autoImplicit false
set_option relaxedAutoImplicit false

namespace Bindery

/-- How a program ended: its exit code, if no signal ended it, and what it wrote as errors. -/
structure Exit where
  code : Option Nat
  errors : String
  deriving DecidableEq

/-- What a program does when it is called by a path with some arguments, or why it cannot be
started. -/
abbrev Program := String → List String → FileTree → Except String (Exit × FileTree)

/-- What the programs do, by the names of their files. -/
abbrev Programs := String → Option Program

/-- What the first line of a script says of how it is run: the path of a program, and an argument
for it, if there is one. -/
def interpreter? (content : Content) : Option (String × Option String) :=
  let isGap (c : Char) : Bool := c = ' ' || c = '\t'
  match content with
  | .text text =>
    match text.toList with
    | '#' :: '!' :: rest =>
      let line := (rest.takeWhile (· ≠ '\n')).dropWhile isGap
      let line := (line.reverse.dropWhile isGap).reverse
      let path := line.takeWhile fun c => !isGap c
      let argument := (line.drop path.length).dropWhile isGap
      if path.isEmpty then none
      else some (String.ofList path,
        if argument.isEmpty then none else some (String.ofList argument))
    | _ => none
  | .binary _ => none

/-- How deep scripts may be run by scripts. -/
def interpreterDepth : Nat := 5

/-- What a file does that is run as a program, up to a depth. -/
def Programs.ofFile (programs : Programs) : Nat → Content → Program
  | 0, _ => fun _ _ _ => .error "Too many levels of symbolic links (os error 40)"
  | depth + 1, content => fun path arguments tree =>
    match interpreter? content with
    | none => .error "Exec format error (os error 8)"
    | some (interpreter, argument) =>
      match tree.find interpreter with
      | .error _ => .error "No such file or directory (os error 2)"
      | .ok (place, entry) =>
        let arguments := argument.toList ++ path :: arguments
        match entry, tree.mayRun place with
        | .program name, true =>
          match programs name with
          | some program => program interpreter arguments tree
          | none => .error "No such file or directory (os error 2)"
        | .file content, true => programs.ofFile depth content interpreter arguments tree
        | _, _ => .error "Permission denied (os error 13)"

/-- The path and the program of a name: those of the path that it is if it has a slash, else those
of the first directory of programs that has it. -/
def Programs.find? (programs : Programs) (tree : FileTree) (name : String) :
    Option (String × Program) :=
  let paths :=
    if Path.isAbsolute name then [name]
    else if name.contains '/' then [Path.join (FileTree.absolutePath tree.here) name]
    else FileTree.programDirectories.map fun place => Path.join (FileTree.absolutePath place) name
  paths.findSome? fun path =>
    match tree.find path with
    | .ok (place, entry) =>
      if !tree.mayRun place then none
      else match entry with
        | .program name => (programs name).map fun program => (path, program)
        | .file content => some (path, programs.ofFile interpreterDepth content)
        | _ => none
    | .error _ => none

/-- What came of formatting a file. -/
inductive Formatting
  | formatted
  | skipped (reason : String)
  | failed (report : String)
  deriving DecidableEq

/-- A step of the program: what it reports, the files it leaves and its result. -/
structure Run (α : Type) where
  log : List LogLine
  tree : FileTree
  result : α

/-- A command as it is shown. -/
def commandLine (program : String) (args : List String) : String :=
  " ".intercalate (program :: args)

/-- An exit code as it is shown. -/
def exitCodeText : Option Nat → String
  | some code => "Some(" ++ toString code ++ ")"
  | none => "None"

/-- The report on a command that failed. -/
def failureReport (program : String) (args : List String) (exit : Exit) : String :=
  "`" ++ commandLine program args ++ "` failed with exit code " ++ exitCodeText exit.code ++ "\n" ++
    String.ofList (Text.trimEnd exit.errors.toList)

/-- Starts a program. No argument can hold the character that ends one. -/
def Program.start (program : Program) (path : String) (args : List String) (tree : FileTree) :
    Except String (Exit × FileTree) :=
  if args.any fun arg => arg.contains '\x00' then .error "nul byte found in provided data"
  else program path args tree

namespace Formatter

/-- The outcome of a formatter that did not do its work. -/
def failure (path report : String) (tree : FileTree) : Run Formatting :=
  ⟨[⟨.warning, "formatter failed on " ++ path ++ ": " ++ report⟩], tree, .failed report⟩

/-- Runs the program of a formatter on a file. -/
def launch (formatter : Formatter) (programPath : String) (program : Program) (path : String)
    (tree : FileTree) : Run Formatting :=
  let args := formatter.args ++ [path]
  match program.start programPath args tree with
  | .error reason => failure path ("failed to run `" ++ programPath ++ "`: " ++ reason) tree
  | .ok (exit, after) =>
    if exit.code = some 0 then ⟨[⟨.debug, "formatted " ++ path⟩], after, .formatted⟩
    else failure path (failureReport programPath args exit) after

end Formatter

/-- Runs a formatter on a file, if there is one and it is enabled and found. -/
def format (programs : Programs) (formatter : Option Formatter) (path : String) (tree : FileTree) :
    Run Formatting :=
  match formatter.filter (·.enabled) with
  | none => ⟨[], tree, .skipped "formatting disabled"⟩
  | some formatter =>
    match programs.find? tree formatter.program with
    | none =>
      ⟨[⟨.warning, "formatter `" ++ formatter.program ++ "` not found in PATH, leaving " ++ path ++
        " unformatted"⟩], tree, .skipped ("`" ++ formatter.program ++ "` not found in PATH")⟩
    | some (programPath, program) => formatter.launch programPath program path tree

end Bindery
