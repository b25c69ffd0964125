import Bindery.Main.State

/-!
# Commands that write and test

`echo` and `printf` write texts with escapes in them, and `test` says whether something holds of
texts, numbers and files.
-/

set_option autoImplicit false
set_option relaxedAutoImplicit false

namespace Bindery.Shell

/-- A command, given its arguments. -/
abbrev Command := List Octets → Act Unit

/-! ### Escapes -/

/-- The number of some digits in a base. -/
def ofDigits (base : Nat) (digits : List Char) : Nat :=
  digits.foldl
    (fun value c => value * base + (if c.isDigit then c.toNat - 48 else c.toLower.toNat - 87)) 0

def isOctalDigit (c : Char) : Bool := '0' ≤ c && c ≤ '7'

/-- The character that a letter behind a backslash stands for. -/
def escapes : List (Char × Char) :=
  [('\\', '\\'), ('a', '\x07'), ('b', '\x08'), ('e', '\x1b'), ('f', '\x0c'), ('n', '\n'),
   ('r', '\x0d'), ('t', '\t'), ('v', '\x0b')]

/-- The character that an escape stands for, without its backslash, and what follows. An octet in
octal notation may have a zero in front of its three digits if `zero`. -/
def readEscape (zero : Bool) (text : List Char) : List Char × List Char :=
  let digits := ((if zero && text.head? = some '0' then text.drop 1 else text).take 3).takeWhile
    isOctalDigit
  match text with
  | [] => (['\\'], [])
  | c :: rest =>
    if isOctalDigit c then
      ([Char.ofNat (ofDigits 8 digits % 256)],
        text.drop (digits.length + if zero && c = '0' then 1 else 0))
    else match escapes.lookup c with
      | some d => ([d], rest)
      | none => (['\\', c], rest)

/-- Replaces the escapes of a text, up to the one that ends all output; whether there is none. -/
def unescape : Nat → List Char → List Char × Bool
  | 0, _ | _, [] => ([], true)
  | _ + 1, '\\' :: 'c' :: _ => ([], false)
  | fuel + 1, c :: rest =>
    let (first, rest) := if c = '\\' then readEscape true rest else ([c], rest)
    let (later, goesOn) := unescape fuel rest
    (first ++ later, goesOn)

def echo : Command := fun arguments => do
  let (arguments, ending) := match arguments with
    | "-n" :: rest => (rest, "")
    | arguments => (arguments, "\n")
  let text := " ".intercalate arguments
  let (shown, goesOn) := unescape (text.length + 1) text.toList
  say (String.ofList shown ++ if goesOn then ending else "")
  setStatus 0

/-! ### Templates -/

/-- The whole number that a text is, in decimal notation. -/
def numberOf? (text : Octets) : Option Int :=
  let (negative, digits) := match text.toList with
    | '-' :: digits => (true, digits)
    | '+' :: digits | digits => (false, digits)
  if digits.isEmpty || !digits.all Char.isDigit then none
  else
    let value : Int := ofDigits 10 digits
    some (if negative then -value else value)

/-- A directive of a template: whether it fills up on the right and with zeros, its least width, how
much of a text it takes, and its letter. -/
structure Directive where
  left : Bool
  zeros : Bool
  width : Nat
  limit : Option Nat
  letter : Char

/-- Reads a directive behind its sign; what follows it. -/
def readDirective? (text : List Char) : Option (Directive × List Char) :=
  let isFlag (c : Char) : Bool := c = '-' || c = '0'
  let flags := text.takeWhile isFlag
  let text := text.drop flags.length
  let width := text.takeWhile Char.isDigit
  let (limit, rest) := match text.drop width.length with
    | '.' :: rest =>
      let limit := rest.takeWhile Char.isDigit
      (some (ofDigits 10 limit), rest.drop limit.length)
    | rest => (none, rest)
  match rest with
  | letter :: rest =>
    some (⟨flags.contains '-', flags.contains '0', ofDigits 10 width, limit, letter⟩, rest)
  | [] => none

/-- Fills a text up to the width of a directive. -/
def Directive.fill (d : Directive) (text : List Char) : List Char :=
  let missing := d.width - text.length
  if d.left then text ++ List.replicate missing ' '
  else List.replicate missing (if d.zeros && d.letter ≠ 's' then '0' else ' ') ++ text

/-- What a directive makes of an argument; `none` for an argument that is no number where one has to
be, and for a directive that there is not. -/
def Directive.apply? (d : Directive) (argument : Octets) : Option (List Char) :=
  let number := numberOf? (if argument = "" then "0" else argument)
  let inBase (base : Nat) : Option (List Char) := number.map fun value =>
    d.fill (Nat.toDigits base (value % 0x10000000000000000).toNat)
  match d.letter with
  | 's' => some (d.fill (argument.toList.take (d.limit.getD argument.length)))
  | 'b' => some (d.fill (unescape (argument.length + 1) argument.toList).1)
  | 'c' => some (d.fill (argument.toList.take 1))
  | 'd' | 'i' => number.map fun value => d.fill (toString value).toList
  | 'u' => inBase 10
  | 'o' => inBase 8
  | 'x' => inBase 16
  | 'X' => (inBase 16).map (·.map Char.toUpper)
  | _ => none

/-- Writes a template once, and gives the arguments that are left. -/
def fillTemplate : Nat → List Char → List Octets → Act (List Octets)
  | 0, _, arguments | _, [], arguments => return arguments
  | fuel + 1, '%' :: '%' :: rest, arguments => do
    say "%"
    fillTemplate fuel rest arguments
  | fuel + 1, '%' :: rest, arguments => do
    match readDirective? rest with
    | none => failWith "missing format character"
    | some (d, after) =>
      let argument := arguments.headD ""
      match d.apply? argument with
      | some text => say (String.ofList text)
      | none =>
        complain (argument ++ ": expected numeric value")
        setStatus 1
      fillTemplate fuel after (arguments.drop 1)
  | fuel + 1, c :: rest, arguments => do
    let (text, rest) := if c = '\\' then readEscape false rest else ([c], rest)
    say (String.ofList text)
    fillTemplate fuel rest arguments

/-- Writes a template as often as it takes arguments. -/
def fillAll (template : List Char) : Nat → List Octets → Act Unit
  | 0, _ => return ()
  | fuel + 1, arguments => do
    let left ← fillTemplate (template.length + 1) template arguments
    if !left.isEmpty && left.length < arguments.length then fillAll template fuel left

def printf : Command := fun arguments => do
  match arguments with
  | [] => failWith "usage: printf format [arg ...]"
  | template :: arguments =>
    setStatus 0
    fillAll template.toList (arguments.length + 1) arguments

/-! ### Conditions -/

/-- What is at a path. -/
def entryAt? (tree : FileTree) (path : Octets) : Option Entry :=
  (tree.find (Octets.decode path)).toOption.map (·.2)

/-- A property of a text or of the file at a path; `none` if there is no such property. -/
def property? (tree : FileTree) (operator operand : Octets) : Option Bool :=
  let entry := entryAt? tree operand
  match operator with
  | "-z" => some (operand = "")
  | "-n" => some (operand ≠ "")
  | "-e" | "-r" | "-w" => some entry.isSome
  | "-f" => some (entry.any fun entry => entry matches .file _ | .program _)
  | "-d" => some (entry = some .directory)
  | "-x" => some ((tree.find (Octets.decode operand)).toOption.any fun found => tree.mayRun found.1)
  | "-s" => some (entry.any fun entry => match entry with
    | .file content => !content.bytes.isEmpty
    | .device _ => false
    | _ => true)
  | _ => none

/-- A comparison of two texts, or of the numbers that they are; `none` if there is no such
comparison. -/
def comparison? (first operator second : Octets) : Option (Except Octets Bool) :=
  let compare (holds : Int → Int → Bool) : Option (Except Octets Bool) :=
    some (match numberOf? first, numberOf? second with
      | some a, some b => .ok (holds a b)
      | none, _ => .error ("Illegal number: " ++ first)
      | _, none => .error ("Illegal number: " ++ second))
  match operator with
  | "=" => some (.ok (first = second))
  | "!=" => some (.ok (first ≠ second))
  | "-eq" => compare fun a b => a = b
  | "-ne" => compare fun a b => a ≠ b
  | "-gt" => compare fun a b => b < a
  | "-ge" => compare fun a b => b ≤ a
  | "-lt" => compare fun a b => a < b
  | "-le" => compare fun a b => a ≤ b
  | _ => none

/-- Decides a condition at the start of some arguments, and gives what follows it. `-o` binds least,
then `-a`, then `!`: `level` is how much binds more closely than what is read. -/
def decide (tree : FileTree) : Nat → Nat → List Octets → Except Octets (Bool × List Octets)
  | 0, _, rest => .ok (false, rest)
  | fuel + 1, level + 1, arguments => do
    let (first, rest) ← decide tree fuel level arguments
    match rest with
    | sign :: later =>
      if sign = (if level = 0 then "-a" else "-o") then
        let (second, rest) ← decide tree fuel (level + 1) later
        return (if level = 0 then first && second else first || second, rest)
      return (first, rest)
    | [] => return (first, [])
  | fuel + 1, 0, arguments => do
    let negated : Except Octets (Bool × List Octets) := do
      let (holds, rest) ← decide tree fuel 0 (arguments.drop 1)
      return (!holds, rest)
    match arguments with
    | [] => return (false, [])
    | [text] => return (text ≠ "", [])
    | first :: second :: rest =>
      match rest, rest.head?.bind (comparison? first second), property? tree first second with
      | _ :: rest, some result, _ => return (← result, rest)
      | _, none, some holds => if first = "!" then negated else return (holds, rest)
      | _, _, _ => if first = "!" then negated else return (first ≠ "", second :: rest)

def test : Command := fun arguments => do
  match decide (← get).tree (4 * arguments.length + 4) 2 arguments with
  | .ok (holds, []) => setStatus (if holds then 0 else 1)
  | .ok (_, text :: _) => failWith (text ++ ": unexpected operator")
  | .error reason => failWith reason

def bracket : Command := fun arguments => do
  if arguments.getLast? = some "]" then test arguments.dropLast else failWith "missing ]"

end Bindery.Shell
