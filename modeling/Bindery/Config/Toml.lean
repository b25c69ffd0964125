import Bindery.Config
import Bindery.Toml.Document
import Bindery.Toml.Writer

/-!
# The text of a configuration

`Config.parse?` reads a configuration from a TOML document. A key that is missing has its default,
but a job needs a module, a description and an output; unknown keys are passed over, except in a
job. A record may also be a list of its values in order, where values may be missing at the end.
`Config.write` writes a configuration with all its keys.
-/

set_option autoImplicit false
set_option relaxedAutoImplicit false

namespace Bindery

open Toml

namespace Toml.Value

def text? : Value → Option String
  | .text value => some value
  | _ => none

def boolean? : Value → Option Bool
  | .boolean value => some value
  | _ => none

def list? : Value → Option (List Value)
  | .list items => some items
  | _ => none

/-- A list of strings. -/
def texts? (value : Value) : Option (List String) := do
  (← value.list?).mapM text?

end Toml.Value

/-- Reads a value that may be missing. -/
def orDefault {α : Type} (standard : α) (read : Value → Option α) : Option Value → Option α
  | none => some standard
  | some value => read value

namespace Formatter

/-- A formatter from the values of its keys, where they are given. -/
def ofValues? (enabled program args : Option Value) : Option Formatter := do
  let standard := Config.defaultFormatter
  return ⟨← orDefault standard.enabled Value.boolean? enabled,
    ← orDefault standard.program Value.text? program, ← orDefault standard.args Value.texts? args⟩

/-- A formatter from a table, a list of its values, or a point in time, which has no key of it. -/
def ofValue? : Value → Option Formatter
  | .table entries =>
    ofValues? (entries.lookup "enabled") (entries.lookup "program") (entries.lookup "args")
  | .list items => ofValues? items[0]? items[1]? items[2]?
  | .moment _ => some Config.defaultFormatter
  | _ => none

end Formatter

namespace Job

/-- The keys of a job. -/
def keys : List String := ["module", "description", "output", "name"]

def ofValues? (module description output name : Option Value) : Option Job := do
  let name ← match name with
    | none => some none
    | some value => (Value.text? value).map some
  return ⟨← (← module).text?, ← (← description).text?, ← (← output).text?, name⟩

def ofValue? : Value → Option Job
  | .table entries =>
    if entries.all fun (key, _) => keys.contains key then
      ofValues? (entries.lookup "module") (entries.lookup "description") (entries.lookup "output")
        (entries.lookup "name")
    else none
  | .list items => ofValues? items[0]? items[1]? items[2]? items[3]?
  | _ => none

/-- The lines of a job. -/
def write (job : Job) : List Char :=
  "\n[[jobs]]\nmodule = ".toList ++ writeString job.module ++
    "\ndescription = ".toList ++ writeString job.description ++
    "\noutput = ".toList ++ writeString job.output ++
    (match job.name with
      | some name => "\nname = ".toList ++ writeString name
      | none => []) ++ ['\n']

end Job

namespace Config

/-- A configuration from the entries of a document. -/
def ofEntries? (entries : List (String × Value)) : Option Config := do
  let format ← orDefault defaultFormatter Formatter.ofValue? (entries.lookup "format")
  let jobs ← orDefault defaultJobs (fun value => do (← value.list?).mapM Job.ofValue?)
    (entries.lookup "jobs")
  return ⟨format, jobs⟩

/-- Reads the text of a configuration. -/
def parse? (document : String) : Option Config := do
  ofEntries? (← Toml.parse? document)

/-- The lines of the formatter. -/
def writeFormatter (formatter : Formatter) : List Char :=
  "[format]\nenabled = ".toList ++ (if formatter.enabled then "true" else "false").toList ++
    "\nprogram = ".toList ++ writeString formatter.program ++
    "\nargs = ".toList ++ writeStrings formatter.args ++ ['\n']

/-- The text of a configuration. -/
def write (config : Config) : String :=
  String.ofList <|
    (if config.jobs.isEmpty then "jobs = []\n\n".toList else []) ++
      writeFormatter config.format ++ config.jobs.flatMap Job.write

end Config

end Bindery
