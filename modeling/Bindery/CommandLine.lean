import Bindery.CommandLine.Arguments
import Bindery.Config.File
import Bindery.Generation

/-!
# The commands

`CommandLine.run` carries out a command on a tree of files and says what it prints and which exit
code it ends with. Reports, messages and diagnostics go to the error stream in the order in which
they arise; the answers of the commands that only look something up go to the output stream.
-/

set_option autoImplicit false
set_option relaxedAutoImplicit false

namespace Bindery.CommandLine

/-- A part of the error stream. -/
inductive Notice
  | log (line : LogLine)
  | print (text : String)
  deriving DecidableEq

/-- The text of a part of the error stream; details are shown on demand only. -/
def Notice.render (verbose : Bool) : Notice → String
  | .log line => if line.level = .debug && !verbose then "" else line.render
  | .print text => text

/-- Why a command fails. -/
inductive Failure
  | fault (cause : Fault)
  | config (cause : ConfigFault)
  | noJob (module : String)
  | someFailed (failed total : Nat)
  deriving DecidableEq

/-- What the user is told about a failure. -/
def Failure.text : Failure → String
  | .fault cause => cause.diagnostic.format false
  | .config cause => "error: " ++ cause.detail ++ "\n"
  | .noJob module => "error: " ++ noJobMessage module ++ "\n"
  | .someFailed failed total =>
    "error: " ++ toString failed ++ " of " ++ toString total ++ " modules failed\n"

/-- What a command does. -/
structure Outcome where
  tree : FileTree
  output : String
  notices : List Notice
  failure : Option Failure

def Outcome.code (outcome : Outcome) : Nat := if outcome.failure.isSome then 1 else 0

/-- The text of the error stream. -/
def Outcome.errors (verbose : Bool) (outcome : Outcome) : String :=
  String.join (outcome.notices.map (Notice.render verbose)) ++
    (outcome.failure.map Failure.text).getD ""

/-! ### Looking up -/

/-- The outcome of a command that leaves the files alone. -/
def answer (tree : FileTree) (result : Except Fault String) : Outcome :=
  match result with
  | .ok text => ⟨tree, text, [], none⟩
  | .error fault => ⟨tree, "", [], some (.fault fault)⟩

/-- A line with a heading, unless there is nothing to list. -/
def listed (heading : String) (items : List String) : String :=
  if items.isEmpty then "" else "  " ++ heading ++ ": " ++ ", ".intercalate items ++ "\n"

def describeProfile (profile : Profile) : String :=
  profile.name ++ "\n" ++
    (match profile.preamble with
      | some preamble =>
        "  header: " ++ String.ofList (Text.trimEnd preamble.toList) ++ "\n"
      | none => "") ++
    listed "skips structs" profile.ignoredStructs ++
    listed "skips aliases" profile.ignoredAliases ++
    listed "renames" (profile.renames.map fun (old, new) => old ++ " -> " ++ new) ++
    String.join (profile.variadics.map fun (function, type) =>
      "  variadic: " ++ function ++ " " ++ type ++ "\n")

/-- The type that a C type becomes under a profile; the function may be given by either name. -/
def mapType (descriptor : String) (function : Option String) (module : String) :
    Except Fault String := do
  let profile ← Profile.named module
  let target ← CType.mapText profile.variadics descriptor (function.map Identifier.snakeCase)
  return if target = "" then "(none)\n" else target ++ "\n"

/-! ### Generating -/

/-- What is printed about a module that was generated. -/
def reportText (module : String) (report : Report) : String :=
  "   Generated " ++ report.output ++ " (" ++ module ++ ", " ++
    toString report.summary.functions ++ " functions)\n" ++
    match report.format with
    | .formatted => "   Formatted " ++ report.output ++ "\n"
    | .skipped _ => ""
    | .failed reason =>
      (Diagnostic.build .warning "formatter failed; the file is left unformatted"
        [.location report.output, .context reason,
         .suggestion "Run the formatter by hand or pass `--no-fmt`"]).format false

/-- What is printed about a job that was run. -/
def jobText (job : Job) : Except Fault Report → String
  | .ok report => reportText job.module report
  | .error fault => (fault.diagnostic.add (.context ("module " ++ job.module))).format false

/-- How many jobs had a fault. -/
def failedCount (results : List (Job × Except Fault Report)) : Nat :=
  results.countP fun result => !result.2.isOk

def generateModules (programs : Programs) (config : Config) (modules : List String)
    (noFormat : Bool) (tree : FileTree) : Outcome :=
  let formatter := config.activeFormatter? noFormat
  match generateAll programs config modules formatter tree with
  | .error name => ⟨tree, "", [], some (.noJob name)⟩
  | .ok run =>
    let failed := failedCount run.result
    ⟨run.tree, "",
      run.log.map .log ++ run.result.map (fun (job, result) => .print (jobText job result)),
      if failed = 0 then none else some (.someFailed failed run.result.length)⟩

def bindModule (programs : Programs) (config : Config) (job : Job) (noFormat : Bool)
    (tree : FileTree) : Outcome :=
  let run := job.run programs (config.activeFormatter? noFormat) tree
  match run.result with
  | .ok report => ⟨run.tree, "", run.log.map .log ++ [.print (reportText job.module report)], none⟩
  | .error fault => ⟨run.tree, "", run.log.map .log, some (.fault fault)⟩

/-- Runs a command that needs the configuration. -/
def withConfig (explicit : Option String) (tree : FileTree) (run : Config → Outcome) : Outcome :=
  let (log, config) := Config.resolve tree explicit (FileTree.absolutePath tree.here)
  match config with
  | .error fault => ⟨tree, "", log.map .log, some (.config fault)⟩
  | .ok config =>
    let outcome := run config
    { outcome with notices := log.map .log ++ outcome.notices }

/-- Carries out a command. -/
def run (programs : Programs) (invocation : Invocation) (tree : FileTree) : Outcome :=
  match invocation.command with
  | .generate modules noFormat =>
    withConfig invocation.config tree fun config =>
      generateModules programs config modules noFormat tree
  | .bind job noFormat =>
    withConfig invocation.config tree fun config =>
      bindModule programs config job noFormat tree
  | .modules => answer tree (.ok (String.join (Profile.builtin.map describeProfile)))
  | .mapType descriptor function module => answer tree (mapType descriptor function module)
  | .convertName identifier => answer tree (.ok (Identifier.snakeCase identifier ++ "\n"))
  | .completions script => answer tree (.ok script)

/-- The paths that a command looks at under a configuration. -/
def Command.paths (config : Config) : Command → List String
  | .generate names _ => (config.select names).flatMap fun job => [job.description, job.output]
  | .bind job _ => [job.description, job.output]
  | .modules | .mapType _ _ _ | .convertName _ | .completions _ => []

/-- The name and the version of the program. -/
def versionText : String := "raygen 0.1.0\n"

end Bindery.CommandLine
