import Bindery.CommandLine
import Bindery.Main.Shell

/-!
# The program

`main` carries out a command in the working directory. What the command can look at is read into a
tree of files first; the command is run on the tree, and what has changed in it is changed on the
disk afterwards. What comes from elsewhere is a parameter of the command, and only stands in here:
no other program is started, so that formatters are those of `Programs.standard`, and there are no
scripts that complete arguments.
-/

set_option autoImplicit false
set_option relaxedAutoImplicit false

namespace Bindery.CommandLine

/-- What the disk holds at a place, if anything. -/
def entryAt? (place : List String) : IO (Option Entry) := do
  let path := (← IO.currentDir) / FileTree.absolutePath place
  if ← path.isDir then return some .directory
  if ← path.pathExists then
    return some (.file (.ofBytes (← IO.FS.readBinFile path).toList))
  return none

/-- Adds to a tree what the disk holds on the way of a path. -/
def survey (tree : FileTree) (path : String) : IO FileTree := do
  let mut tree := tree
  let mut place := tree.start path
  for name in Path.names path do
    if name = ".." then place := place.dropLast
    else if name ≠ "." then
      place := place ++ [name]
      if (tree.get? place).isNone then
        if let some entry ← entryAt? place then tree := tree.set place entry
  return tree

/-- Puts a file in place in one step. -/
def replaceFile (path : String) (content : Content) : IO Unit := do
  let fresh := path ++ ".new"
  IO.FS.writeBinFile fresh ⟨content.bytes.toArray⟩
  IO.FS.rename fresh path

/-- Makes the disk hold what a tree holds, where it differs from the tree read before. -/
def commit (before after : FileTree) : IO Unit := do
  for (place, entry) in before.ordered.reverse do
    if (after.get? place).isNone then
      match entry with
      | .directory => IO.FS.removeDir (FileTree.absolutePath place)
      | _ => IO.FS.removeFile (FileTree.absolutePath place)
  for (place, entry) in after.ordered do
    unless before.get? place = some entry do
      match entry with
      | .directory => IO.FS.createDir (FileTree.absolutePath place)
      | .file content => replaceFile (FileTree.absolutePath place) content
      | .device _ | .program _ => pure ()

/-- Carries out a command, and gives its exit code. -/
def perform (invocation : Invocation) : IO Nat := do
  let directory := toString (← IO.currentDir)
  let standardFile := Path.join directory Config.fileName
  let tree ← survey (.initial (Path.names directory) Shell.programNames)
    (invocation.config.getD standardFile)
  let config := (Config.resolve tree invocation.config directory).2.toOption
  let paths := (config.map fun config => invocation.command.paths config).getD []
  let tree ← paths.foldlM survey tree
  let outcome := run .standard invocation tree
  commit tree outcome.tree
  IO.print outcome.output
  IO.eprint (outcome.errors invocation.verbose)
  return outcome.code

/-- A line in place of the help on all arguments. -/
def usageText : String :=
  "Usage: raygen [OPTIONS] <" ++ "|".intercalate commandNames ++ "> [ARGUMENTS]\n"

end Bindery.CommandLine

open Bindery.CommandLine in
def main (arguments : List String) : IO UInt32 := do
  match Invocation.parse (fun _ => none) arguments (← IO.getEnv "RAYGEN_CONFIG") with
  | .ok invocation => return (← perform invocation).toUInt32
  | .error .help => IO.print usageText; return 0
  | .error .version => IO.print versionText; return 0
  | .error .wrongUsage => IO.eprint usageText; return 2
