import Bindery.Emission
import Bindery.Formatting

/-!
# Generating modules

`generate` runs one module: it loads a description, emits the source, replaces the output file and
has it formatted. A fault before the file is written leaves all files as they were. `generateAll`
runs the jobs of a configuration one after the other; each finds the files that those before it
left, and none is kept from running by the fault of another.
-/

set_option autoImplicit false
set_option relaxedAutoImplicit false

namespace Bindery

/-- Reads the description of an interface from a file. -/
def Interface.load (tree : FileTree) (path : String) : Except Fault Interface :=
  if tree.exists? path then
    match tree.readText path with
    | .error trouble => .error (.file path trouble)
    | .ok document => (Interface.read document).mapError (.malformedInput path)
  else .error (.missingInput path)

/-- The built-in profile of a name, or the fault that there is none. -/
def Profile.named (name : String) : Except Fault Profile :=
  match Profile.find? name with
  | some profile => .ok profile
  | none => .error (.unknownModule name)

/-- What came of a module that was generated. -/
structure Report where
  output : String
  summary : Summary
  format : Formatting
  deriving DecidableEq

namespace Summary

/-- The counts of the kinds of items. -/
def counts (s : Summary) : String :=
  toString s.structs ++ " structs, " ++ toString s.aliases ++ " aliases, " ++
    toString s.callbacks ++ " callbacks, " ++ toString s.enums ++ " enums, " ++
    toString s.functions ++ " functions"

end Summary

namespace Item

/-- The line that reports an ignored item. -/
def skipLine? (profile : Profile) (item : Item) : Option LogLine :=
  if item.ignored profile then
    match item with
    | .struct s => some ⟨.debug, "skipping struct " ++ s.name ++ " (provided by boilerplate)"⟩
    | .typeAlias a => some ⟨.debug, "skipping alias " ++ a.name⟩
    | .callback _ | .enum _ | .function _ => none
  else none

end Item

/-- The lines that emitting a module reports: the ignored items up to the first fault, and the
counts at the end if there is none. -/
def emissionLog (profile : Profile) (name : String) (interface : Interface) : List LogLine :=
  let reached := interface.items.takeWhile fun item => (item.block profile).isOk
  reached.filterMap (Item.skipLine? profile) ++
    match emit profile name interface with
    | .error _ => []
    | .ok emission =>
      [⟨.debug, "module " ++ name ++ ": " ++ emission.summary.counts ++ ", " ++
        toString emission.summary.skipped ++ " skipped"⟩]

/-- Generates one module. -/
def generate (programs : Programs) (formatter : Option Formatter) (profile : Profile)
    (name description output : String) (tree : FileTree) : Run (Except Fault Report) :=
  let start : LogLine :=
    ⟨.debug, "generating module " ++ name ++ " (" ++ profile.name ++ ") from " ++ description⟩
  match Interface.load tree description with
  | .error fault => ⟨[start], tree, .error fault⟩
  | .ok interface =>
    let log := start :: emissionLog profile name interface
    match emit profile name interface with
    | .error fault => ⟨log, tree, .error fault⟩
    | .ok emission =>
      let change := tree.writeAtomic output (.text emission.source)
      match change.trouble with
      | some trouble => ⟨log, change.tree, .error (.file output trouble)⟩
      | none =>
        let formatted := format programs formatter output change.tree
        ⟨log ++ [⟨.info, "wrote " ++ output ++ " (" ++ emission.summary.counts ++ ")"⟩] ++
          formatted.log, formatted.tree, .ok ⟨output, emission.summary, formatted.result⟩⟩

/-- Runs one job. -/
def Job.run (programs : Programs) (formatter : Option Formatter) (job : Job) (tree : FileTree) :
    Run (Except Fault Report) :=
  match Profile.named job.module with
  | .error fault => ⟨[], tree, .error fault⟩
  | .ok profile => generate programs formatter profile job.header job.description job.output tree

/-- Runs one job, and reports its fault. -/
def Job.attempt (programs : Programs) (formatter : Option Formatter) (job : Job)
    (tree : FileTree) : Run (Except Fault Report) :=
  let run := job.run programs formatter tree
  match run.result with
  | .ok _ => run
  | .error fault =>
    { run with
      log := run.log ++ [⟨.warning, "module " ++ job.module ++ " failed: " ++ fault.message⟩] }

/-- Runs some jobs in order. -/
def attemptAll (programs : Programs) (formatter : Option Formatter) :
    List Job → FileTree → Run (List (Job × Except Fault Report))
  | [], tree => ⟨[], tree, []⟩
  | job :: jobs, tree =>
    let first := job.attempt programs formatter tree
    let others := attemptAll programs formatter jobs first.tree
    ⟨first.log ++ others.log, others.tree, (job, first.result) :: others.result⟩

/-- Runs the jobs of the named modules, or all jobs where none is named. A name without a job is
the only fault of the whole, and nothing is run then. -/
def generateAll (programs : Programs) (config : Config) (modules : List String)
    (formatter : Option Formatter) (tree : FileTree) :
    Except String (Run (List (Job × Except Fault Report))) :=
  match config.unknown? modules with
  | some name => .error name
  | none => .ok (attemptAll programs formatter (config.select modules) tree)

/-- The message about a module that has no job. -/
def noJobMessage (name : String) : String := "no job configured for module `" ++ name ++ "`"

end Bindery
