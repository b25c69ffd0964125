import Bindery.Json.Skip

/-!
# Readers for values of a known shape

A `Reader` takes a value of one shape from the start of a text. Text, 64-bit integers and lists have
one each; `Reader.record` makes one from `Fields`, which list the keys of a record in order, each
with the reader of its value and, for some, the value that stands in for an absent key. A record is
written as an object, whose keys come in any order, at most once each and among unknown ones, or as
a list of its values in the order of the fields.
-/

set_option autoImplicit false
set_option relaxedAutoImplicit false

namespace Bindery.Json

/-- Takes a value from the start of a text, given a number that exceeds the length of the text. -/
def Reader (α : Type) : Type := Nat → List Char → Except Fault (α × List Char)

/-- Reads a value that is neither a list nor an object. -/
def scalar (budget : Nat) : List Char → Except Fault (Found × List Char)
  | [] => .error (.behind .endOfValue [])
  | c :: s =>
    if c = 'n' then (word ['u', 'l', 'l'] s).map (.null, ·)
    else if c = 't' then (word ['r', 'u', 'e'] s).map (.boolean true, ·)
    else if c = 'f' then (word ['a', 'l', 's', 'e'] s).map (.boolean false, ·)
    else if c = '"' then
      (textBody budget [] s).map fun (characters, s) => (.text (String.ofList characters), s)
    else if c = '-' ∨ c.isDigit then (number (c :: s)).map fun (value, s) => (value.found, s)
    else .error (.behind .expectedValue (c :: s))

/-- The fault of a text whose first value is of another kind than expected. A list or an object is
left unread; any other value is read first, and a fault inside it comes before. -/
def wrongKind (expected : String) (budget : Nat) (s : List Char) : Fault :=
  if s.head? = some '[' then .before (.wrongKind .sequence expected) s
  else if s.head? = some '\x7b' then .before (.wrongKind .map expected) s
  else match scalar budget s with
    | .ok (found, s) => .before (.wrongKind found expected) s
    | .error fault => fault

def Reader.text : Reader String := fun budget s =>
  match skipSpaces s with
  | [] => .error (.behind .endOfValue [])
  | c :: s =>
    if c = '"' then
      (textBody budget [] s).map fun (characters, s) => (String.ofList characters, s)
    else .error (wrongKind "a string" budget (c :: s))

/-- The 64-bit integer that a number is. -/
def Number.toInt64 (s : List Char) : Number → Except Fault (Int64 × List Char)
  | .natural value =>
    if value < 0x8000000000000000 then .ok (Int64.ofInt value, s)
    else .error (.before (.wrongValue (.integer value) "i64") s)
  | .negative magnitude => .ok (Int64.ofInt (-(magnitude : Int)), s)
  | .real value => .error (.before (.wrongKind (.real (writeReal value)) "i64") s)

def Reader.integer : Reader Int64 := fun budget s =>
  match skipSpaces s with
  | [] => .error (.behind .endOfValue [])
  | c :: s =>
    if c = '-' ∨ c.isDigit then
      match number (c :: s) with
      | .ok (value, s) => value.toInt64 s
      | .error fault => .error fault
    else .error (wrongKind "i64" budget (c :: s))

/-- Moves to the next value of a list, or tells by `false` that the list ends here. The closing
bracket is left unread. -/
def nextItem (first : Bool) (s : List Char) : Except Fault (Bool × List Char) :=
  match skipSpaces s with
  | [] => .error (.behind .endOfList [])
  | c :: s =>
    if c = ']' then .ok (false, c :: s)
    else if first then .ok (true, c :: s)
    else if c = ',' then
      match skipSpaces s with
      | [] => .error (.behind .endOfValue [])
      | d :: s => if d = ']' then .error (.behind .trailingComma (d :: s)) else .ok (true, d :: s)
    else .error (.behind .expectedListCommaOrEnd (c :: s))

/-- The values of a list after its opening bracket; `done` are those already read, the last one
first. -/
def items {α : Type} (item : Reader α) (budget : Nat) :
    Nat → List α → List Char → Except Fault (List α × List Char)
  | 0, _, s => .error (.before .endOfList s)
  | fuel + 1, done, s =>
    match nextItem done.isEmpty s with
    | .error fault => .error fault
    | .ok (false, s) => .ok (done.reverse, s.drop 1)
    | .ok (true, s) =>
      match item budget s with
      | .error fault => .error fault
      | .ok (value, s) => items item budget fuel (value :: done) s

def Reader.list {α : Type} (item : Reader α) : Reader (List α) := fun budget s =>
  match skipSpaces s with
  | [] => .error (.behind .endOfValue [])
  | c :: s =>
    if c = '[' then items item budget budget [] s
    else .error (wrongKind "a sequence" budget (c :: s))

/-- The keys of a record in order, each with the reader of its value and, where the key may be
absent, the value that it has then. `found` holds the values found so far, `values` all of them. -/
inductive Fields : (found values : Type) → Type 1
  | done : Fields Unit Unit
  | field {α β γ : Type} (key : String) (read : Reader α) (absent : Option α) (rest : Fields β γ) :
      Fields (Option α × β) (α × γ)

namespace Fields

def size {β γ : Type} : Fields β γ → Nat
  | .done => 0
  | .field _ _ _ rest => rest.size + 1

def noneFound {β γ : Type} : Fields β γ → β
  | .done => ()
  | .field _ _ _ rest => (none, rest.noneFound)

/-- All values, or the first key in order that is needed and was not found. -/
def collect {β γ : Type} : Fields β γ → β → Except String γ
  | .done, _ => .ok ()
  | .field key _ absent rest, (slot, slots) =>
    match slot <|> absent with
    | none => .error key
    | some value => (rest.collect slots).map (value, ·)

/-- The fault of a key that was found before. -/
def duplicate (key : String) (s : List Char) : Fault :=
  match skipSpaces s with
  | [] => .before (.duplicateField key) []
  | c :: s => .before (.duplicateField key) (if c = '\x7d' then s else c :: s)

/-- Reads what follows a key of the record; `none` where the record has no such key. -/
def member? {β γ : Type} (budget : Nat) (name : String) (s : List Char) :
    Fields β γ → β → Option (Except Fault (β × List Char))
  | .done, _ => none
  | .field key read _ rest, (slot, slots) =>
    if name = key then
      some <| if slot.isSome then .error (duplicate key s) else do
        let (value, s) ← read budget (← colon s)
        return ((some value, slots), s)
    else (rest.member? budget name s slots).map (·.map fun (slots, s) => ((slot, slots), s))

/-- Reads the values of a record that is written as a list; `index` counts those read before. -/
def positional {β γ : Type} (title : String) (total budget index : Nat) :
    Fields β γ → List Char → Except Fault (γ × List Char)
  | .done, s => .ok ((), s)
  | .field _ read absent rest, s => do
    let (more, s) ← nextItem (index == 0) s
    if more then
      let (value, s) ← read budget s
      let (values, s) ← rest.positional title total budget (index + 1) s
      return ((value, values), s)
    else match absent with
      | none => throw (.before (.wrongLength index title total) (s.drop 1))
      | some value =>
        let (values, s) ← rest.positional title total budget (index + 1) s
        return ((value, values), s)

end Fields

/-- Reads the end of a list that may hold no further value. -/
def listEnd (s : List Char) : Except Fault (List Char) :=
  match skipSpaces s with
  | [] => .error (.behind .endOfList [])
  | c :: s =>
    if c = ']' then .ok s
    else if c = ',' then
      match skipSpaces s with
      | ']' :: s => .error (.behind .trailingComma (']' :: s))
      | s => .error (.behind .trailingCharacters s)
    else .error (.behind .trailingCharacters (c :: s))

/-- Moves behind the opening quote of the next key of an object, or tells by `false` that the
object has ended. -/
def nextKey (first : Bool) (s : List Char) : Except Fault (Bool × List Char) :=
  let key : List Char → Except Fault (Bool × List Char)
    | [] => .error (.behind .endOfValue [])
    | c :: s => if c = '"' then .ok (true, s) else .error (.behind .keyIsNotText (c :: s))
  match skipSpaces s with
  | [] => .error (.behind .endOfObject [])
  | c :: s =>
    if c = '\x7d' then .ok (false, s)
    else if first then key (c :: s)
    else if c = ',' then
      match skipSpaces s with
      | '\x7d' :: s => .error (.behind .trailingComma ('\x7d' :: s))
      | s => key s
    else .error (.behind .expectedObjectCommaOrEnd (c :: s))

/-- The members of a record after the opening brace of its object. -/
def members {β γ : Type} (fields : Fields β γ) (budget : Nat) :
    Nat → Bool → β → List Char → Except Fault (γ × List Char)
  | 0, _, _, s => .error (.before .endOfObject s)
  | fuel + 1, first, slots, s =>
    match nextKey first s with
    | .error fault => .error fault
    | .ok (false, s) =>
      match fields.collect slots with
      | .ok value => .ok (value, s)
      | .error key => .error (.before (.missingField key) s)
    | .ok (true, s) =>
      match textBody budget [] s with
      | .error fault => .error fault
      | .ok (name, s) =>
        match fields.member? budget (String.ofList name) s slots with
        | some (.error fault) => .error fault
        | some (.ok (slots, s)) => members fields budget fuel false slots s
        | none =>
          match colon s >>= skipValue budget with
          | .error fault => .error fault
          | .ok s => members fields budget fuel false slots s

/-- The reader of a record; `title` names it in faults. -/
def Reader.record {α β γ : Type} (title : String) (fields : Fields β γ) (build : γ → α) :
    Reader α :=
  fun budget s =>
    match skipSpaces s with
    | [] => .error (.behind .endOfValue [])
    | c :: s =>
      if c = '\x7b' then
        (members fields budget budget true fields.noneFound s).map fun (values, s) =>
          (build values, s)
      else if c = '[' then do
        let (values, s) ← fields.positional title fields.size budget 0 s
        return (build values, ← listEnd s)
      else .error (wrongKind title budget (c :: s))

/-- Reads a document that holds one value and nothing else. -/
def Reader.document {α : Type} (reader : Reader α) (document : List Char) : Except Problem α :=
  let result : Except Fault α := do
    let (value, rest) ← reader (document.length + 1) document
    match skipSpaces rest with
    | [] => return value
    | c :: s => throw (.behind .trailingCharacters (c :: s))
  result.mapError (·.locate document)

end Bindery.Json
