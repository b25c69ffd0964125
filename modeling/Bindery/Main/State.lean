import Bindery.Main.Script

/-!
# What scripts change

A `State` is all that a script can change: the files, the streams that are open and which descriptor
leads to which, the variables, and what has become of the last command. An `Act` is what a command
does to it; an act that does not come to its end stops for a reason (`Stop`).
-/

set_option autoImplicit false
set_option relaxedAutoImplicit false

namespace Bindery.Shell

/-- What a stream is connected to. -/
inductive Target
  | nothing
  | file (place : List String)
  | memory (text : Octets)

/-- A stream, and how far it has been read or written. -/
structure Stream where
  target : Target
  position : Nat
  /-- Whether all that is written goes to the end. -/
  atEnd : Bool

structure State where
  tree : FileTree
  streams : Array Stream
  /-- The descriptors that are open, and the numbers of their streams. -/
  descriptors : List (Nat × Nat)
  store : List (Octets × Octets)
  name : Octets
  arguments : List Octets
  options : List Char
  status : Nat
  line : Nat
  /-- The command of the shell itself that runs. -/
  command : Option Octets
  /-- What to do at the end. -/
  ending : Option Octets

/-- The number of the process of a shell. -/
def processNumber : Octets := "4242"

/-- Why an act does not come to its end. -/
inductive Stop
  | exit
  | fault
  | killed
  deriving DecidableEq

abbrev Act := ExceptT Stop (StateM State)

/-! ### Streams -/

/-- Puts octets into others from a position on. -/
def overlay (old : List Char) (position : Nat) (new : List Char) : List Char :=
  let front := old.take position
  front ++ List.replicate (position - front.length) '\x00' ++ new ++
    old.drop (position + new.length)

namespace State

/-- The stream that a descriptor leads to, with its number. -/
def stream? (state : State) (descriptor : Nat) : Option (Nat × Stream) := do
  let number ← state.descriptors.lookup descriptor
  return (number, ← state.streams[number]?)

def setStream (state : State) (number : Nat) (stream : Stream) : State :=
  { state with streams := state.streams.setIfInBounds number stream }

/-- Has a descriptor lead to a stream. -/
def connect (state : State) (descriptor number : Nat) : State :=
  { state with
    descriptors := (descriptor, number) :: state.descriptors.filter (·.1 ≠ descriptor) }

/-- Has a descriptor lead nowhere. -/
def disconnect (state : State) (descriptor : Nat) : State :=
  { state with descriptors := state.descriptors.filter (·.1 ≠ descriptor) }

/-- Opens a stream, and gives its number. -/
def openStream (state : State) (target : Target) (atEnd : Bool) : State × Nat :=
  ({ state with streams := state.streams.push ⟨target, 0, atEnd⟩ }, state.streams.size)

/-- What a stream holds. -/
def held (state : State) (stream : Stream) : Octets :=
  match stream.target with
  | .nothing => ""
  | .memory text => text
  | .file place =>
    match state.tree.get? place with
    | some (.file content) => content.octets
    | _ => ""

/-- Writes octets where a descriptor leads, if it is open. -/
def write (state : State) (descriptor : Nat) (text : Octets) : State :=
  match state.stream? descriptor with
  | none => state
  | some (number, stream) =>
    match stream.target with
    | .nothing => state
    | .memory old => state.setStream number { stream with target := .memory (old ++ text) }
    | .file place =>
      let old := (state.held stream).toList
      let position := if stream.atEnd then old.length else stream.position
      let new := String.ofList (overlay old position text.toList)
      { state with tree := state.tree.set place (.file (.ofOctets new)) }.setStream number
        { stream with position := position + text.length }

/-- What has been written to a stream in memory. -/
def written (state : State) (number : Nat) : Octets :=
  (state.streams[number]?.map state.held).getD ""

def hasOption (state : State) (option : Char) : Bool := state.options.contains option

/-- The shell after another one has run with the same files and streams. -/
def resume (state other : State) : State :=
  { state with
    tree := { other.tree with here := state.tree.here }
    streams := other.streams
    status := other.status }

end State

/-! ### Acts -/

def setStatus (status : Nat) : Act Unit := modify fun state => { state with status }

def put (descriptor : Nat) (text : Octets) : Act Unit :=
  modify fun state => state.write descriptor text

def say (text : Octets) : Act Unit := put 1 text

/-- Takes all that is left of the input. -/
def takeInput : Act Octets := do
  let state ← get
  match state.stream? 0 with
  | none => return ""
  | some (number, stream) =>
    let text := state.held stream
    set (state.setStream number { stream with position := text.length })
    return String.ofList (text.toList.drop stream.position)

/-- Writes a message of the shell itself. -/
def complain (text : Octets) : Act Unit := do
  let state ← get
  let command := (state.command.map (· ++ ": ")).getD ""
  put 2 (state.name ++ ": " ++ toString state.line ++ ": " ++ command ++ text ++ "\n")

/-- Stops with a message. -/
def failWith {α : Type} (text : Octets) : Act α := do
  complain text
  setStatus 2
  throw .fault

/-- Carries out an act and then a change of the state, however the act ends. -/
def afterwards {α : Type} (act : Act α) (change : State → State) : Act α :=
  ExceptT.mk fun state =>
    let (result, after) := act.run state
    (result, change after)

def assign (name value : Octets) : Act Unit :=
  modify fun state =>
    { state with store := (name, value) :: state.store.filter (·.1 ≠ name) }

/-! ### Reasons -/

/-- Why a file cannot be used, in few words. -/
def reasonOf : FileTrouble → Octets
  | .notFound => "No such file or directory"
  | .notADirectory => "Not a directory"
  | .isADirectory => "Is a directory"
  | .alreadyExists => "File exists"
  | .busy => "Device or resource busy"
  | .nameTooLong => "File name too long"
  | .invalidName | .notText => "Invalid argument"
  | .other text => text

end Bindery.Shell
