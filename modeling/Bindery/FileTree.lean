import Bindery.Fault
import Bindery.Path

/-!
# Trees of files

A `FileTree` is a tree of directories and files with a working directory in it. A place in it is the
list of names that leads there from the top. Paths are followed name by name, from the working
directory or from the top, so every directory on the way has to exist, `..` included. `writeAtomic`
is the way to replace a file: it makes the directories that are missing, and then either the whole
new content is in place or no file has changed.
-/

set_option autoImplicit false
set_option relaxedAutoImplicit false

namespace Bindery

/-- The content of a file. -/
inductive Content
  | text (value : String)
  /-- Bytes that are not the encoding of a text. -/
  | binary (bytes : List UInt8)
  deriving DecidableEq

/-- The content that some bytes are. -/
def Content.ofBytes (bytes : List UInt8) : Content :=
  match String.fromUTF8? ⟨bytes.toArray⟩ with
  | some value => .text value
  | none => .binary bytes

/-- The bytes of a content. -/
def Content.bytes : Content → List UInt8
  | .text value => value.toUTF8.toList
  | .binary bytes => bytes

/-- A content with a text behind it. -/
def Content.append (content : Content) (more : String) : Content :=
  match content with
  | .text value => .text (value ++ more)
  | .binary bytes => .ofBytes (bytes ++ more.toUTF8.toList)

/-- What stands at a place where there is no file. -/
inductive Device
  /-- Reads as empty, and takes any text. -/
  | null
  /-- Reads as zeros without end, and takes any text. -/
  | zero
  /-- Reads and takes what a descriptor of the process does. -/
  | descriptor (number : Nat)
  deriving DecidableEq

inductive Entry
  | directory
  | file (content : Content)
  | device (device : Device)
  /-- A file that is the program of a name. -/
  | program (name : String)
  deriving DecidableEq

structure FileTree where
  /-- The place of the working directory. -/
  here : List String
  entries : List (List String × Entry)
  /-- The permissions of places that do not have the usual ones. -/
  modes : List (List String × Nat)

namespace FileTree

/-- The directories at the top of every tree. -/
def topDirectories : List String :=
  ["bin", "boot", "dev", "etc", "home", "lib", "media", "mnt", "opt", "proc", "root", "run", "sbin",
   "srv", "sys", "tmp", "usr", "var"]

/-- The devices by their places among devices. -/
def devices : List (List String × Device) :=
  [(["null"], .null), (["zero"], .zero), (["stdin"], .descriptor 0), (["stdout"], .descriptor 1),
   (["stderr"], .descriptor 2), (["fd", "0"], .descriptor 0), (["fd", "1"], .descriptor 1),
   (["fd", "2"], .descriptor 2)]

/-- The directories that programs are found in. -/
def programDirectories : List (List String) := [["usr", "bin"], ["bin"]]

/-- The absolute path of a place. -/
def absolutePath (place : List String) : String := "/" ++ "/".intercalate place

/-- A tree with an empty working directory and some programs. -/
def initial (here : List String) (programs : List String) : FileTree :=
  let above := (List.range here.length).map fun n => here.take (n + 1)
  ⟨here,
    topDirectories.map (fun name => ([name], .directory)) ++
    [(["usr", "bin"], .directory), (["dev", "fd"], .directory)] ++
    devices.map (fun (place, device) => ("dev" :: place, .device device)) ++
    above.map (fun place => (place, .directory)) ++
    programDirectories.flatMap fun place =>
      programs.map fun name => (place ++ [name], .program name),
    []⟩

/-- What is at a place. -/
def get? (tree : FileTree) (place : List String) : Option Entry :=
  if place.isEmpty then some .directory else tree.entries.lookup place

/-- Puts an entry at a place. -/
def set (tree : FileTree) (place : List String) (entry : Entry) : FileTree :=
  { tree with entries := (place, entry) :: tree.entries.filter fun old => old.1 ≠ place }

/-- Removes a place and all places below it. -/
def erase (tree : FileTree) (place : List String) : FileTree :=
  { tree with
    entries := tree.entries.filter fun old => !place.isPrefixOf old.1
    modes := tree.modes.filter fun old => !place.isPrefixOf old.1 }

theorem lookup_filter {α β : Type} [BEq α] [LawfulBEq α] (keep : α → Bool) (key : α) :
    ∀ entries : List (α × β),
      (entries.filter fun entry => keep entry.1).lookup key =
        if keep key then entries.lookup key else none
  | [] => by simp
  | (name, value) :: rest => by
    have ih := lookup_filter keep key rest
    by_cases hkey : key = name
    · subst hkey
      by_cases hkeep : keep key
      · simp [hkeep]
      · simp [hkeep, ih]
    · have hne : (key == name) = false := by simpa using hkey
      by_cases hkeep : keep name <;> simp [List.lookup_cons, hkeep, hne, ih]

@[simp] theorem get?_nil (tree : FileTree) : tree.get? [] = some .directory := rfl

theorem get?_set (tree : FileTree) {place : List String} (entry : Entry) (other : List String)
    (hplace : place ≠ []) :
    (tree.set place entry).get? other = if other = place then some entry else tree.get? other := by
  by_cases hother : other = place
  · subst hother
    have hempty : other.isEmpty = false := by simpa using hplace
    simp [get?, set, hempty]
  · have hne : (other == place) = false := by simpa using hother
    have hfilter := lookup_filter (β := Entry) (fun key => decide (key ≠ place)) other tree.entries
    simp only [ne_eq, hother, not_false_eq_true, decide_true, ↓reduceIte] at hfilter
    simp only [get?, set, List.lookup_cons, hne, hother, ↓reduceIte]
    split
    · rfl
    · simpa using hfilter

/-! ### Following paths -/

/-- The longest name of an entry, in bytes. -/
def nameLimit : Nat := 255

/-- The longest path, in bytes. -/
def pathLimit : Nat := 4095

/-- The trouble with a name that no entry can have. -/
def nameTrouble? (name : String) : Option FileTrouble :=
  if nameLimit < name.utf8ByteSize then some .nameTooLong else none

/-- The place one step from a directory. -/
def step (tree : FileTree) (place : List String) (name : String) :
    Except FileTrouble (List String) :=
  match tree.get? place with
  | none => .error .notFound
  | some (.file _) | some (.device _) | some (.program _) => .error .notADirectory
  | some .directory =>
    if name = "." then .ok place
    else if name = ".." then .ok place.dropLast
    else match nameTrouble? name, tree.get? (place ++ [name]) with
      | some trouble, _ => .error trouble
      | none, none => .error .notFound
      | none, some _ => .ok (place ++ [name])

/-- The place some steps from another. -/
def walk (tree : FileTree) (place : List String) (steps : List String) :
    Except FileTrouble (List String) :=
  steps.foldlM tree.step place

/-- The trouble with a path that leads nowhere in any tree. -/
def pathTrouble? (path : String) : Option FileTrouble :=
  if path.toList.contains '\x00' then some .invalidName
  else if path = "" then some .notFound
  else if pathLimit < path.utf8ByteSize then some .nameTooLong
  else none

/-- The place that a path starts from. -/
def start (tree : FileTree) (path : String) : List String :=
  if Path.isAbsolute path then [] else tree.here

/-- The place that a path leads to and what is there. -/
def find (tree : FileTree) (path : String) : Except FileTrouble (List String × Entry) := do
  if let some trouble := pathTrouble? path then throw trouble
  let place ← tree.walk (tree.start path) (Path.steps path)
  match tree.get? place with
  | some entry => return (place, entry)
  | none => throw .notFound

def exists? (tree : FileTree) (path : String) : Bool := (tree.find path).isOk

def isDirectory (tree : FileTree) (path : String) : Bool :=
  match tree.find path with
  | .ok (_, .directory) => true
  | _ => false

/-- The directory that a path leads into and the last name of the path; `none` for a path that ends
in the top, in `.` or in `..`. -/
def findParent (tree : FileTree) (path : String) :
    Except FileTrouble (List String × Option String) := do
  if let some trouble := pathTrouble? path then throw trouble
  let names := Path.names path
  let place ← tree.walk (tree.start path) (names.dropLast ++ ["."])
  return (place, names.getLast?.filter fun name => name ≠ "." && name ≠ "..")

/-! ### Permissions -/

/-- The permissions of a place, in octal digits: for its owner, its group and all others. -/
def modeAt (tree : FileTree) (place : List String) : Nat :=
  match tree.modes.lookup place, tree.get? place with
  | some mode, _ => mode
  | none, some .directory | none, some (.program _) => 0o755
  | none, some (.device _) => 0o666
  | none, _ => 0o644

/-- Whether what is at a place may be run, as far as its permissions go. -/
def mayRun (tree : FileTree) (place : List String) : Bool := tree.modeAt place &&& 0o111 ≠ 0

/-! ### Reading -/

/-- The text of a file. -/
def readText (tree : FileTree) (path : String) : Except FileTrouble String := do
  match (← tree.find path).2 with
  | .directory => throw .isADirectory
  | .file (.text value) => return value
  | .device _ => return ""
  | .file (.binary _) | .program _ => throw .notText

/-! ### Directories -/

/-- Makes one directory. -/
def makeDirectory (tree : FileTree) (path : String) : Except FileTrouble FileTree := do
  let (place, name) ← tree.findParent path
  match name with
  | none => throw .alreadyExists
  | some name =>
    if let some trouble := nameTrouble? name then throw trouble
    if (tree.get? (place ++ [name])).isSome then throw .alreadyExists
    return tree.set (place ++ [name]) .directory

/-- The outcome of a change: the tree it leaves, and what went wrong, if anything did. -/
structure Change where
  tree : FileTree
  trouble : Option FileTrouble

/-- Makes a directory for which a parent has just been made, if it was missing. -/
def settle (tree : FileTree) (path : String) : Change :=
  match tree.makeDirectory path with
  | .ok made => ⟨made, none⟩
  | .error trouble => ⟨tree, if tree.isDirectory path then none else some trouble⟩

/-- Makes a directory and those above it that are missing; `fuel` exceeds the number of names. -/
def makeDirectoriesWith : Nat → FileTree → String → Change
  | 0, tree, _ => ⟨tree, some .notFound⟩
  | fuel + 1, tree, path =>
    if path = "" then ⟨tree, none⟩
    else match tree.makeDirectory path with
      | .ok made => ⟨made, none⟩
      | .error .notFound =>
        match Path.parent? path with
        | none => ⟨tree, some .notFound⟩
        | some parent =>
          let above := makeDirectoriesWith fuel tree parent
          if above.trouble.isSome then above else above.tree.settle path
      | .error trouble => ⟨tree, if tree.isDirectory path then none else some trouble⟩

def makeDirectories (tree : FileTree) (path : String) : Change :=
  makeDirectoriesWith (path.length + 1) tree path

/-- Makes a directory unless something of that name is there already. -/
def ensureDirectory (tree : FileTree) (path : String) : Change :=
  if path = "" || tree.exists? path then ⟨tree, none⟩ else tree.makeDirectories path

/-! ### Writing -/

/-- The place at which a finished file can be put. A directory cannot be replaced. -/
def target (tree : FileTree) (path : String) : Except FileTrouble (List String) := do
  let (place, name) ← tree.findParent path
  match name with
  | none => throw .busy
  | some name =>
    if let some trouble := nameTrouble? name then throw trouble
    if Path.endsInSlash path then throw .notADirectory
    if tree.get? (place ++ [name]) = some .directory then throw .isADirectory
    return place ++ [name]

/-- The directory that the new content of a file is written in first. -/
def workDirectory (path : String) : String :=
  match Path.parent? path with
  | none => "."
  | some parent => if parent = "" then "." else parent

/-- The name of a work file; all that are likely to be tried are of one length. -/
def workName (number : Nat) : String := ".work-" ++ toString (1000 + number)

/-- The absolute path of the file that the new content of a file is written to first. -/
def workFile (tree : FileTree) (path : String) : String :=
  let directory := workDirectory path
  Path.join (if Path.isAbsolute directory then directory
    else Path.join (absolutePath tree.here) directory) (workName 0)

/-- Whether a tree has nothing at a place and below it. -/
def isUnused (tree : FileTree) (place : List String) : Bool :=
  (tree.entries.all fun old => !place.isPrefixOf old.1) &&
    tree.modes.all fun old => !place.isPrefixOf old.1

/-- A name for a work file in a directory, which nothing there and nothing on the way of a path
has. -/
def freshName (tree : FileTree) (directory : List String) (path : String) : String :=
  let tries := tree.entries.length + tree.modes.length + (Path.names path).length + 1
  let isFree (name : String) : Bool :=
    tree.isUnused (directory ++ [name]) && !(Path.names path).contains name
  (((List.range tries).map workName).find? isFree).getD (workName 0)

/-- Puts an entry at a place, with the usual permissions. -/
def renew (tree : FileTree) (place : List String) (entry : Entry) : FileTree :=
  { tree.set place entry with modes := tree.modes.filter fun old => old.1 ≠ place }

/-- Writes a work file at a place and moves it to where a path leads. A work file that cannot be
moved is removed. -/
def installVia (tree : FileTree) (work : List String) (path : String) (content : Content) :
    Change :=
  let staged := tree.set work (.file content)
  match staged.target path with
  | .ok place => ⟨(staged.erase work).renew place (.file content), none⟩
  | .error trouble => ⟨staged.erase work, some trouble⟩

/-- Puts a finished file in place, if its directory can hold one. -/
def install (tree : FileTree) (path : String) (content : Content) : Change :=
  match tree.find (workDirectory path) with
  | .error trouble => ⟨tree, some trouble⟩
  | .ok (directory, .directory) =>
    match pathTrouble? (tree.workFile path) with
    | some trouble => ⟨tree, some trouble⟩
    | none => tree.installVia (directory ++ [tree.freshName directory path]) path content
  | .ok (_, .file _) | .ok (_, .device _) | .ok (_, .program _) => ⟨tree, some .notADirectory⟩

/-- Replaces a file in one step, and makes the directories above it that are missing. -/
def writeAtomic (tree : FileTree) (path : String) (content : Content) : Change :=
  let prepared := tree.ensureDirectory (workDirectory path)
  if prepared.trouble.isSome then prepared else prepared.tree.install path content

/-- Overwrites a file where it is, or makes it. -/
def overwrite (tree : FileTree) (path : String) (content : Content) :
    Except FileTrouble FileTree := do
  let (place, name) ← tree.findParent path
  match name with
  | none => throw .isADirectory
  | some name =>
    if let some trouble := nameTrouble? name then throw trouble
    if Path.endsInSlash path then throw .isADirectory
    match tree.get? (place ++ [name]) with
    | some .directory => throw .isADirectory
    | some (.device _) => return tree
    | some (.file _) | some (.program _) | none => return tree.set (place ++ [name]) (.file content)

/-- Removes a file or a directory with all below it. -/
def remove (tree : FileTree) (path : String) : Except FileTrouble FileTree := do
  return tree.erase (← tree.find path).1

/-! ### Listing -/

/-- The path of an entry; that of a directory ends in a slash. -/
def label (place : List String) (entry : Entry) : String :=
  "/".intercalate place ++ match entry with
    | .directory => "/"
    | .file _ | .device _ | .program _ => ""

/-- The entries below a place, by the places from there on. -/
def below (tree : FileTree) (place : List String) : List (List String × Entry) :=
  (tree.entries.filter fun entry => place.isPrefixOf entry.1 && entry.1 ≠ place).map
    fun entry => (entry.1.drop place.length, entry.2)

/-- All entries by their places; a directory comes before what is below it. -/
def ordered (tree : FileTree) : List (List String × Entry) :=
  tree.entries.mergeSort fun a b => !(b.1 < a.1)

/-- All entries below the working directory by their paths, in increasing order. -/
def listing (tree : FileTree) : List (String × Entry) :=
  ((tree.below tree.here).map fun (place, entry) => (label place entry, entry)).mergeSort
    fun a b => !(b.1 < a.1)

end FileTree

end Bindery
