/-!
# The configuration

Which modules are generated, from which descriptions and into which files, and the program that
formats the files afterwards. Without a configuration file the three modules of the library are
generated and formatted with `v fmt -w`.
-/

set_option autoImplicit false
set_option relaxedAutoImplicit false

namespace Bindery

/-- The program that formats a generated file; the path of the file comes after the arguments. -/
structure Formatter where
  enabled : Bool
  program : String
  args : List String
  deriving DecidableEq

/-- One module to generate. -/
structure Job where
  module : String
  description : String
  output : String
  /-- The name in the module line, if it is not that of the module. -/
  name : Option String
  deriving DecidableEq

structure Config where
  format : Formatter
  jobs : List Job
  deriving DecidableEq

/-- The name in the module line. -/
def Job.header (job : Job) : String := job.name.getD job.module

namespace Config

def defaultFormatter : Formatter := ⟨true, "v", ["fmt", "-w"]⟩

def defaultJobs : List Job :=
  [⟨"raylib", "external/raylib/parser/raylib_api.json", "raylib.c.v", none⟩,
   ⟨"raymath", "external/raylib/parser/raymath_api.json", "raymath/raymath.c.v", none⟩,
   ⟨"raygui", "external/raylib/parser/raygui_api.json", "raygui/raygui.c.v", none⟩]

def standard : Config := ⟨defaultFormatter, defaultJobs⟩

/-- The name of the file that is looked for in a directory. -/
def fileName : String := "Raygen.toml"

/-- The jobs of the named modules in the order of the configuration; all of them where no module is
named. -/
def select (config : Config) (modules : List String) : List Job :=
  config.jobs.filter fun job => modules.isEmpty || modules.contains job.module

/-- The first of the named modules that has no job. -/
def unknown? (config : Config) (modules : List String) : Option String :=
  modules.find? fun module => !config.jobs.any fun job => job.module = module

/-- The formatter to run, unless it is turned off. -/
def activeFormatter? (config : Config) (noFormat : Bool) : Option Formatter :=
  if noFormat || !config.format.enabled then none else some config.format

end Config

end Bindery
