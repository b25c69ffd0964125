import Bindery.Main.State

/-!
# What words stand for

The parts of a word are replaced by what they stand for, which gives the fields of the word
(`Word.fields`). A field that is a pattern is replaced by the names that it stands for: `*` stands
for any text, `?` for any character, and a list in brackets for one of its characters.
-/

set_option autoImplicit false
set_option relaxedAutoImplicit false

namespace Bindery.Shell

/-! ### Patterns -/

/-- A character, and whether it is quoted. -/
structure Sign where
  char : Char
  quoted : Bool
  deriving DecidableEq

def signsOf (text : Octets) (quoted : Bool) : List Sign := text.toList.map fun c => ⟨c, quoted⟩

def textOf (signs : List Sign) : Octets := String.ofList (signs.map (·.char))

/-- Whether a sign may make a pattern stand for another text than its own. -/
def Sign.isWild (sign : Sign) : Bool := !sign.quoted && ['*', '?', '['].contains sign.char

/-- A part of a pattern. -/
inductive Piece
  | anything
  | oneOf (accepts : Char → Bool)

/-- What the members of a list in brackets accept. -/
def acceptsMember : List Char → Char → Bool
  | low :: '-' :: high :: rest, c => (low ≤ c && c ≤ high) || acceptsMember rest c
  | d :: rest, c => c = d || acceptsMember rest c
  | [], _ => false

/-- The parts of a pattern; `fuel` exceeds its length. -/
def readPattern : Nat → List Sign → List Piece
  | 0, _ | _, [] => []
  | fuel + 1, sign :: rest =>
    let itself := Piece.oneOf (· = sign.char)
    if sign.quoted then itself :: readPattern fuel rest
    else match sign.char with
      | '*' => .anything :: readPattern fuel rest
      | '?' => .oneOf (fun _ => true) :: readPattern fuel rest
      | '[' =>
        let members := rest.takeWhile (·.char ≠ ']')
        if members.isEmpty || members.length = rest.length then itself :: readPattern fuel rest
        else
          let accepts := match members.map (·.char) with
            | '!' :: members => fun c => !acceptsMember members c
            | members => acceptsMember members
          .oneOf accepts :: readPattern fuel (rest.drop (members.length + 1))
      | _ => itself :: readPattern fuel rest

/-- Whether a property holds of a text or of what is left without some characters at its start. -/
def anySuffix (holds : List Char → Bool) : List Char → Bool
  | [] => holds []
  | c :: text => holds (c :: text) || anySuffix holds text

/-- Whether a pattern stands for a text. -/
def fits : List Piece → List Char → Bool
  | [], text => text.isEmpty
  | .anything :: pieces, text => anySuffix (fits pieces) text
  | .oneOf accepts :: pieces, c :: text => accepts c && fits pieces text
  | .oneOf _ :: _, [] => false

/-- The names of the entries of a directory that are not hidden, in increasing order. -/
def entryNames (tree : FileTree) (place : List String) : List Octets :=
  let names := (tree.below place).filterMap fun (other, _) => match other with
    | [name] => if name.toList.head? = some '.' then none else some (Octets.encode name)
    | _ => none
  names.mergeSort fun a b => !(b < a)

/-- The paths that a pattern stands for. Its last name may be a pattern, those before it are names
of directories. -/
def pathsOf (tree : FileTree) (signs : List Sign) : List Octets :=
  let name := (signs.reverse.takeWhile (·.char ≠ '/')).reverse
  let front := signs.take (signs.length - name.length)
  let pieces := readPattern (name.length + 1) name
  match tree.find (if front.isEmpty then "." else Octets.decode (textOf front)) with
  | .ok (place, .directory) =>
    if front.any Sign.isWild then []
    else ((entryNames tree place).filter fun entry => fits pieces entry.toList).map
      (textOf front ++ ·)
  | _ => []

/-! ### Fields -/

/-- The value of a parameter, if it has one. -/
def State.parameter? (state : State) (name : Octets) : Option Octets :=
  match name with
  | "@" | "*" => some (" ".intercalate state.arguments)
  | "#" => some (toString state.arguments.length)
  | "?" => some (toString state.status)
  | "$" => some processNumber
  | "0" => some state.name
  | name =>
    if name.toList.all Char.isDigit then state.arguments[(name.toNat?.getD 0) - 1]?
    else state.store.lookup name

/-- The value of a parameter, which has to be set where the shell insists on it. -/
def valueOf (name : Octets) : Act Octets := do
  let state ← get
  match state.parameter? name with
  | some value => return value
  | none =>
    if state.hasOption 'u' then failWith (name ++ ": parameter not set")
    return ""

/-- Signs that belong to one field, if there is anything of it. -/
abbrev Piecewise := List (Option (List Sign))

/-- The pieces of a value that is not quoted, which is split at blanks. -/
def splitValue (value : Octets) : Piecewise :=
  (Text.splitBy [' ', '\t', '\n'].contains value.toList).map fun piece =>
    if piece.isEmpty then none else some (signsOf (String.ofList piece) false)

/-- The pieces of a part of a word. -/
def Part.pieces : Part → Act Piecewise
  | .text octets quoted =>
    return [if octets = "" && !quoted then none else some (signsOf octets quoted)]
  | .value name quoted => do
    let arguments := (← get).arguments
    let value ← valueOf name
    match name, quoted with
    | "@", true =>
      return if arguments.isEmpty then [none] else arguments.map fun a => some (signsOf a true)
    | _, true => return [some (signsOf value true)]
    | _, false => return splitValue value

/-- Pieces behind others, of which the last and the first belong to one field. -/
def joinPieces : Piecewise → Piecewise → Piecewise
  | [], later => later
  | [none], later => later
  | [some last], some first :: later => some (last ++ first) :: later
  | [some last], none :: later => some last :: later
  | [some last], [] => [some last]
  | piece :: pieces, later => piece :: joinPieces pieces later

/-- The signs of the fields of a word. -/
def Word.signs (word : Word) : Act (List (List Sign)) := do
  let pieces ← word.mapM Part.pieces
  return (pieces.foldr joinPieces []).filterMap id

/-- The fields of a word. -/
def Word.fields (word : Word) : Act (List Octets) := do
  let tree := (← get).tree
  return (← word.signs).flatMap fun signs =>
    let paths := if signs.any Sign.isWild then pathsOf tree signs else []
    if paths.isEmpty then [textOf signs] else paths

/-- A word as one text. -/
def Word.value (word : Word) : Act Octets := do
  let texts ← word.mapM fun part => match part with
    | .text octets _ => pure octets
    | .value name _ => valueOf name
  return String.join texts

end Bindery.Shell
