import Bindery.Toml.Scalar

/-!
# TOML documents

`parse?` reads a document into the entries of its top-level table. Values nest at most 79 deep, and
a key has at most 79 parts. While a document is read, a table remembers how it came to be
(`Origin`), which decides what may still be added to it: a header opens each table once, dotted keys
extend only tables made by dotted keys, and a header may pass through any table.
-/

set_option autoImplicit false
set_option relaxedAutoImplicit false

namespace Bindery.Toml

/-- How a table came to be. -/
inductive Origin
  /-- By a header of its own, or as an element of a list of tables. -/
  | opened
  /-- As a part of the way to another table in a header. -/
  | passed
  /-- As a part of a dotted key. -/
  | dotted
  deriving DecidableEq

/-- An entry while the document is read. -/
inductive Node
  | value (value : Value)
  | table (origin : Origin) (entries : List (String × Node))
  | tables (elements : List (List (String × Node)))

abbrev Entries := List (String × Node)

/-! ### Building tables -/

/-- Replaces the entry of a key, or adds one behind the others. -/
def put (key : String) (node : Node) : Entries → Entries
  | [] => [(key, node)]
  | (name, old) :: rest =>
    if name = key then (name, node) :: rest else (name, old) :: put key node rest

/-- Adds an entry under a dotted key. The parts before the last must lead through tables that dotted
keys made, or that were only passed, and end in one of the former. `fits` says that the table at
hand may take the last part. -/
def addDotted (fits : Bool) (entries : Entries) (last : String) (value : Value) :
    List String → Option Entries
  | [] =>
    if fits && (entries.lookup last).isNone then some (put last (.value value) entries) else none
  | key :: keys =>
    match entries.lookup key with
    | none => do
      let inner ← addDotted true [] last value keys
      return put key (.table .dotted inner) entries
    | some (.table origin inner) =>
      if origin = .opened then none else do
        let inner ← addDotted (origin = .dotted) inner last value keys
        return put key (.table origin inner) entries
    | some (.tables elements) => do
      let element ← addDotted false (← elements.getLast?) last value keys
      return put key (.tables (elements.dropLast ++ [element])) entries
    | some (.value _) => none

/-- Changes the table that the parts of a header lead to; missing tables on the way are made. -/
def changeAt (change : Entries → Option Entries) (entries : Entries) : List String → Option Entries
  | [] => change entries
  | key :: keys =>
    match entries.lookup key with
    | none => do
      let inner ← changeAt change [] keys
      return put key (.table .passed inner) entries
    | some (.table origin inner) => do
      let inner ← changeAt change inner keys
      return put key (.table origin inner) entries
    | some (.tables elements) => do
      let element ← changeAt change (← elements.getLast?) keys
      return put key (.tables (elements.dropLast ++ [element])) entries
    | some (.value _) => none

/-- A key with its parts before the last, the last part, and the value. -/
structure Pair where
  path : List String
  key : String
  value : Value

/-- Adds pairs to a table of its own. -/
def addPairs (pairs : List Pair) (entries : Entries) : Option Entries :=
  pairs.foldlM (fun entries pair => addDotted true entries pair.key pair.value pair.path) entries

/-- A header with the pairs below it; the header of a list of tables adds an element to the list. -/
structure Section where
  element : Bool
  path : List String
  key : String
  pairs : List Pair

/-- Adds what a section holds to the table its header leads into. -/
def Section.addTo (part : Section) (entries : Entries) : Option Entries :=
  match part.element, entries.lookup part.key with
  | false, none => do
    return put part.key (.table .opened (← addPairs part.pairs [])) entries
  | false, some (.table .passed inner) => do
    return put part.key (.table .opened (← addPairs part.pairs inner)) entries
  | true, none => do return put part.key (.tables [← addPairs part.pairs []]) entries
  | true, some (.tables elements) => do
    return put part.key (.tables (elements ++ [← addPairs part.pairs []])) entries
  | _, _ => none

mutual

def Node.toValue : Node → Value
  | .value value => value
  | .table _ entries => .table (toEntries entries)
  | .tables elements => .list (toElements elements)

def toEntries : List (String × Node) → List (String × Value)
  | [] => []
  | (key, node) :: rest => (key, node.toValue) :: toEntries rest

def toElements : List (List (String × Node)) → List Value
  | [] => []
  | entries :: rest => .table (toEntries entries) :: toElements rest

end

/-! ### Keys -/

def isKeyChar (c : Char) : Bool := c.isAlphanum || c = '_' || c = '-'

/-- Reads one part of a key. -/
def keyPart? (fuel : Nat) (s : List Char) : Option (String × List Char) :=
  let bare := s.takeWhile isKeyChar
  if bare.isEmpty then
    (lineString? fuel s).map fun (characters, s) => (String.ofList characters, s)
  else some (String.ofList bare, s.dropWhile isKeyChar)

/-- Reads the parts of a key with points between them, and the blanks around them. -/
def keyParts? (budget : Nat) : Nat → List Char → Option (List String × List Char)
  | 0, _ => none
  | fuel + 1, s => do
    let (part, s) ← keyPart? budget (skipBlanks s)
    match skipBlanks s with
    | '.' :: s => do
      let (parts, s) ← keyParts? budget fuel s
      return (part :: parts, s)
    | s => return ([part], s)

/-- The most parts of a key, and the most open lists and tables around a value. -/
def nestingLimit : Nat := 79

/-- Reads a key as its parts before the last, and the last. -/
def key? (budget : Nat) (s : List Char) : Option ((List String × String) × List Char) := do
  let (parts, s) ← keyParts? budget budget s
  if parts.length ≤ nestingLimit then
    return ((parts.dropLast, ← parts.getLast?), s)
  else none

/-! ### Values -/

mutual

/-- Reads a value inside `depth` open lists and tables. -/
def value? (budget depth : Nat) : Nat → List Char → Option (Value × List Char)
  | 0, _ => none
  | fuel + 1, s =>
    match s with
    | '[' :: s =>
      if depth < nestingLimit then
        (list? budget (depth + 1) fuel true s).map fun (items, s) => (.list items, s)
      else none
    | '\x7b' :: s =>
      if depth < nestingLimit then do
        let (pairs, s) ← table? budget (depth + 1) fuel true s
        return (.table (toEntries (← addPairs pairs [])), s)
      else none
    | s =>
      match string? budget s with
      | some (characters, s) => some (.text (String.ofList characters), s)
      | none => scalar? s

/-- Reads the elements of a list after its opening bracket or after an element. -/
def list? (budget depth : Nat) : Nat → Bool → List Char → Option (List Value × List Char)
  | 0, _, _ => none
  | fuel + 1, first, s =>
    match skipLines budget s with
    | ']' :: s => some ([], s)
    | s => do
      let s ← if first then some s else
        match s with
        | ',' :: s => some (skipLines budget s)
        | _ => none
      match s with
      | ']' :: s => if first then none else return ([], s)
      | s => do
        let (item, s) ← value? budget depth fuel s
        let (items, s) ← list? budget depth fuel false s
        return (item :: items, s)

/-- Reads the pairs of a table on one line after its opening brace or after a pair. -/
def table? (budget depth : Nat) : Nat → Bool → List Char → Option (List Pair × List Char)
  | 0, _, _ => none
  | fuel + 1, first, s =>
    match skipBlanks s with
    | '\x7d' :: s => some ([], s)
    | s => do
      let s ← if first then some s else
        match s with
        | ',' :: s => some s
        | _ => none
      let ((path, key), s) ← key? budget s
      match s with
      | '=' :: s => do
        let (value, s) ← value? budget depth fuel (skipBlanks s)
        let (pairs, s) ← table? budget depth fuel false s
        return (⟨path, key, value⟩ :: pairs, s)
      | _ => none

end

/-! ### Lines -/

/-- Reads a key, its value and the rest of the line. -/
def pair? (budget : Nat) (s : List Char) : Option (Pair × List Char) := do
  let ((path, key), s) ← key? budget s
  match s with
  | '=' :: s => do
    let (value, s) ← value? budget 0 budget (skipBlanks s)
    return (⟨path, key, value⟩, ← lineEnd? s)
  | _ => none

/-- Reads the pairs up to the next header or the end of the document. -/
def pairs? (budget : Nat) : Nat → List Char → Option (List Pair × List Char)
  | 0, _ => none
  | fuel + 1, s =>
    match skipBlanks s with
    | [] => some ([], [])
    | c :: s =>
      if c = '[' then some ([], c :: s)
      else if c = '#' ∨ c = '\n' ∨ c = '\r' then do pairs? budget fuel (← lineEnd? (c :: s))
      else do
        let (pair, s) ← pair? budget (c :: s)
        let (pairs, s) ← pairs? budget fuel s
        return (pair :: pairs, s)

/-- Reads a header and the rest of its line. -/
def header? (budget : Nat) : List Char → Option ((Bool × List String × String) × List Char)
  | '[' :: '[' :: s => do
    let ((path, key), s) ← key? budget s
    match s with
    | ']' :: ']' :: s => return ((true, path, key), ← lineEnd? s)
    | _ => none
  | '[' :: s => do
    let ((path, key), s) ← key? budget s
    match s with
    | ']' :: s => return ((false, path, key), ← lineEnd? s)
    | _ => none
  | _ => none

/-- Reads sections up to the end of the document. -/
def sections? (budget : Nat) : Nat → List Char → Option (List Section)
  | 0, _ => none
  | _ + 1, [] => some []
  | fuel + 1, s => do
    let ((element, path, key), s) ← header? budget s
    let (pairs, s) ← pairs? budget budget s
    return ⟨element, path, key, pairs⟩ :: (← sections? budget fuel s)

/-- Drops a byte order mark at the start of a document. -/
def dropMark : List Char → List Char
  | '\ufeff' :: s => s
  | s => s

/-- The entries of the top-level table of a document. -/
def parse? (document : String) : Option (List (String × Value)) := do
  let s := dropMark document.toList
  let budget := s.length + 1
  let (pairs, s) ← pairs? budget budget s
  let sections ← sections? budget budget s
  let root ← addPairs pairs []
  let root ← sections.foldlM (fun root part => changeAt part.addTo root part.path) root
  return toEntries root

end Bindery.Toml
