import Bindery.Main.Commands
import Bindery.Main.Expansion

/-!
# Tools

Some of the programs that scripts call to look at files and to change them. A tool takes options in
front of its operands.
-/

set_option autoImplicit false
set_option relaxedAutoImplicit false

namespace Bindery.Shell.Tool

/-- Writes a message that begins with the name of a tool, and has it fail. -/
def refuse (name text : Octets) : Act Unit := do
  put 2 (name ++ ": " ++ text ++ "\n")
  setStatus 1

/-- The letters of the options among arguments, and the operands. -/
def splitOptions (known : List Char) : List Octets → List Char × List Octets
  | [] => ([], [])
  | argument :: rest =>
    match argument.toList with
    | ['-', '-'] => ([], rest)
    | '-' :: c :: more =>
      let (letters, operands) := splitOptions known rest
      if (c :: more).all known.contains then (c :: more ++ letters, operands)
      else (letters, argument :: operands)
    | _ =>
      let (letters, operands) := splitOptions known rest
      (letters, argument :: operands)

/-- The octets of a file. -/
def readOctets (tree : FileTree) (path : Octets) : Except FileTrouble Octets := do
  match (← tree.find (Octets.decode path)).2 with
  | .directory => throw .isADirectory
  | .file content => return content.octets
  | .device _ | .program _ => return ""

/-- Carries out an act on the text of each operand, or of the input if there is none. -/
def eachText (name : Octets) (operands : List Octets) (act : Octets → Octets → Act Unit) :
    Act Unit := do
  if operands.isEmpty then act "" (← takeInput)
  for path in operands do
    match readOctets (← get).tree path with
    | .ok text => act path text
    | .error trouble => refuse name (path ++ ": " ++ reasonOf trouble)

/-- Makes a change to the files, or has a tool fail. -/
def change (name text : Octets) (make : FileTree → Except FileTrouble FileTree) : Act Unit := do
  let state ← get
  match make state.tree with
  | .ok tree => set { state with tree }
  | .error trouble => refuse name (text ++ ": " ++ reasonOf trouble)

/-- The lines of a text, each with its end. -/
def linesOf (text : Octets) : List Octets :=
  let pieces := Text.splitBy (· = '\n') text.toList
  pieces.dropLast.map (fun piece => String.ofList (piece ++ ['\n'])) ++
    (pieces.getLast?.filter (!·.isEmpty)).toList.map String.ofList

def cat : Command := fun arguments =>
  eachText "cat" (splitOptions [] arguments).2 fun _ text => say text

def head : Command := fun arguments => do
  let (count, operands) := match arguments with
    | "-n" :: count :: rest => ((numberOf? count).getD 10, rest)
    | arguments => (10, arguments)
  eachText "head" operands fun _ text =>
    say (String.join ((linesOf text).take count.toNat))

def wc : Command := fun arguments => do
  let (letters, operands) := splitOptions ['l', 'w', 'c'] arguments
  eachText "wc" operands fun path text => do
    let counts :=
      [('l', text.toList.count '\n'), ('w', (Text.words text.toList).length), ('c', text.length)]
    let chosen := counts.filter fun entry => letters.isEmpty || letters.contains entry.1
    let width := if chosen.length = 1 then 0
      else if operands.isEmpty then 7 else (toString text.length).length
    let columns := chosen.map fun entry =>
      let digits := toString entry.2
      String.ofList (List.replicate (width - digits.length) ' ') ++ digits
    say (" ".intercalate columns ++ (if path = "" then "" else " " ++ path) ++ "\n")

def ls : Command := fun arguments => do
  let operands := (splitOptions ['1'] arguments).2
  for path in if operands.isEmpty then ["."] else operands do
    let tree := (← get).tree
    match tree.find (Octets.decode path) with
    | .ok (place, .directory) => say (String.join ((entryNames tree place).map (· ++ "\n")))
    | .ok _ => say (path ++ "\n")
    | .error trouble =>
      refuse "ls" ("cannot access '" ++ path ++ "': " ++ reasonOf trouble)
      setStatus 2

def mkdir : Command := fun arguments => do
  let (letters, operands) := splitOptions ['p'] arguments
  for path in operands do
    change "mkdir" ("cannot create directory '" ++ path ++ "'") fun tree => do
      if letters.isEmpty then tree.makeDirectory (Octets.decode path)
      else match tree.makeDirectories (Octets.decode path) with
        | ⟨tree, none⟩ => return tree
        | ⟨_, some trouble⟩ => throw trouble

def touch : Command := fun arguments => do
  for path in arguments do
    if !(← get).tree.exists? (Octets.decode path) then
      change "touch" ("cannot touch '" ++ path ++ "'") fun tree =>
        tree.overwrite (Octets.decode path) (.text "")

def rm : Command := fun arguments => do
  let (letters, operands) := splitOptions ['r', 'f'] arguments
  for path in operands do
    let isMissing := !(← get).tree.exists? (Octets.decode path)
    if !(isMissing && letters.contains 'f') then
      change "rm" ("cannot remove '" ++ path ++ "'") fun tree => do
        if (← tree.find (Octets.decode path)).2 = .directory && !letters.contains 'r' then
          throw .isADirectory
        tree.remove (Octets.decode path)

/-- The path of a copy: that of a file, or in a directory that of its last name. -/
def copyTarget (tree : FileTree) (source target : Octets) : Octets :=
  if tree.isDirectory (Octets.decode target) then
    Path.join target (String.ofList (source.toList.reverse.takeWhile (· ≠ '/')).reverse)
  else target

def cp : Command := fun arguments => do
  match arguments with
  | [source, target] =>
    match readOctets (← get).tree source with
    | .error .isADirectory => refuse "cp" ("-r not specified; omitting directory '" ++ source ++ "'")
    | .error trouble => refuse "cp" ("cannot stat '" ++ source ++ "': " ++ reasonOf trouble)
    | .ok text =>
      change "cp" ("cannot create regular file '" ++ target ++ "'") fun tree =>
        tree.overwrite (Octets.decode (copyTarget tree source target)) (.ofOctets text)
  | _ => refuse "cp" "missing file operand"

/-- What replaces a text on every line, or where it is first on each line: `s/text/image/`. -/
def substitution? (script : Octets) : Option (Octets → Octets) :=
  match script.toList with
  | 's' :: mark :: rest =>
    match (Text.splitBy (· = mark) rest).map String.ofList with
    | [text, image, "g"] => some fun line => line.replace text image
    | [text, image, ""] => some fun line => match line.splitOn text with
      | first :: second :: more => first ++ image ++ text.intercalate (second :: more)
      | _ => line
    | _ => none
  | _ => none

/-- Edits lines by one substitution of a text, in place with the option for that. -/
def sed : Command := fun arguments => do
  match splitOptions ['i'] arguments with
  | (letters, script :: operands) =>
    match substitution? script with
    | none => refuse "sed" "-e expression #1, char 1: unknown command"
    | some edit =>
      eachText "sed" operands fun path text => do
        let edited := String.join ((linesOf text).map edit)
        if letters.isEmpty then say edited
        else change "sed" ("couldn't edit " ++ path) fun tree =>
          tree.overwrite (Octets.decode path) (.ofOctets edited)
  | _ => refuse "sed" "no script specified"

end Bindery.Shell.Tool

namespace Bindery.Shell

/-- The tools by their names. -/
def tools : List (String × Command) :=
  [("cat", Tool.cat), ("cp", Tool.cp), ("head", Tool.head), ("ls", Tool.ls),
   ("mkdir", Tool.mkdir), ("rm", Tool.rm), ("sed", Tool.sed), ("touch", Tool.touch),
   ("wc", Tool.wc)]

end Bindery.Shell
