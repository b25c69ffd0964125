import Bindery.Main.Octets

/-!
# Scripts

A formatter may be the shell with a script for it. A script is read command by command, each up to
the end of its line (`Reader.nextCommand`), so that what stands in front of a fault is run before the
fault is found. A command is simple, or joins others to a pipeline, a list, a group, a condition or a
loop over words. A word is made of texts, quoted or not, and of values of parameters.
-/

set_option autoImplicit false
set_option relaxedAutoImplicit false

namespace Bindery.Shell

/-- A part of a word. -/
inductive Part
  | text (octets : Octets) (quoted : Bool)
  | value (name : Octets) (quoted : Bool)
  deriving DecidableEq

abbrev Word := List Part

/-- Where a redirection leads. -/
inductive Direction
  | input
  | output
  | append
  /-- Where the descriptor leads that the word names. -/
  | copy
  /-- To a text, which stands in the script itself. -/
  | document
  deriving DecidableEq

structure Redirect where
  descriptor : Nat
  direction : Direction
  word : Word

/-- A command. Those that can be complained about know their line. -/
inductive Node
  | nothing
  | simple (line : Nat) (assignments : List (Octets × Word)) (words : List Word)
      (redirects : List Redirect)
  | pipeline (commands : List Node)
  | negation (command : Node)
  | both (first second : Node)
  | either (first second : Node)
  | sequence (first second : Node)
  /-- A group, in a shell of its own if `inner`. -/
  | group (line : Nat) (inner : Bool) (command : Node) (redirects : List Redirect)
  | choice (test ifTrue ifFalse : Node)
  | each (line : Nat) (name : Octets) (words : List Word) (body : Node)

inductive Token
  | endOfFile
  | newline
  | redirect (descriptor : Nat) (direction : Direction)
  | word (word : Word)
  /-- An operator or a keyword. -/
  | sign (text : Octets)
  deriving DecidableEq

/-- How a token is called in a message. -/
def Token.title : Token → Octets
  | .endOfFile => "end of file"
  | .newline => "newline"
  | .redirect _ _ => "redirection"
  | .word _ => "word"
  | .sign text => "\"" ++ text ++ "\""

def keywords : List Octets :=
  ["!", "case", "do", "done", "elif", "else", "esac", "fi", "for", "if", "in", "then", "until",
   "while", "\x7b", "\x7d"]

/-- What has not been read of a script. -/
structure Reader where
  rest : List Char
  line : Nat
  /-- The lines of documents that have been cut out behind the line that is read. -/
  passed : Nat
  /-- A token that is to be read once more. -/
  again : Option Token

/-- Why a script cannot be read on, and where. -/
structure SyntaxFault where
  line : Nat
  text : Octets

abbrev Read := StateT Reader (Except SyntaxFault)

def fail {α : Type} (text : Octets) : Read α := do
  throw ⟨(← get).line, "Syntax error: " ++ text⟩

def putBack (token : Token) : Read Unit := modify fun reader => { reader with again := some token }

/-- Complains about a token in the place of one that is wanted. -/
def unexpected {α : Type} (token : Token) (wanted : Option Token) : Read α :=
  fail (token.title ++ " unexpected" ++
    match wanted with
    | some wanted => " (expecting " ++ wanted.title ++ ")"
    | none => "")

/-! ### Words -/

def isNameStart (c : Char) : Bool := c.isAlpha || c = '_'

def isNamePart (c : Char) : Bool := c.isAlphanum || c = '_'

/-- Whether a text can be the name of a variable. -/
def isName (text : List Char) : Bool := text.head?.any isNameStart && text.all isNamePart

/-- Whether a character ends a word. -/
def endsWord (c : Char) : Bool :=
  [' ', '\t', '\n', ';', '&', '|', '<', '>', '(', ')'].contains c

/-- The name of a parameter at the start of a text, and what follows. -/
def splitParameter? (text : List Char) : Option (Octets × List Char) :=
  match text with
  | [] => none
  | c :: rest =>
    if isNameStart c then
      some (String.ofList (text.takeWhile isNamePart), text.dropWhile isNamePart)
    else if c.isDigit || ['#', '$', '*', '?', '@'].contains c then some (String.singleton c, rest)
    else none

/-- The parameter at the start of a text behind a dollar sign, in braces or not, and what
follows. -/
def readParameter? (text : List Char) : Option (Octets × List Char) :=
  match text with
  | '\x7b' :: inner =>
    match splitParameter? inner with
    | some (name, '\x7d' :: rest) => some (name, rest)
    | _ => none
  | text => splitParameter? text

/-- Where a part of a word stands. -/
inductive Place
  | bare
  | quoted
  | document
  deriving DecidableEq

/-- Whether a backslash in a place takes away the meaning of a character. -/
def Place.escapes (place : Place) (c : Char) : Bool :=
  match place with
  | .bare => true
  | .quoted => ['\\', '\x60', '$', '"'].contains c
  | .document => ['\\', '\x60', '$'].contains c

/-- Adds a part in front of others; texts that are quoted alike become one. -/
def addPart (part : Part) (word : Word) : Word :=
  match part, word with
  | .text a p, .text b q :: rest => if p = q then .text (a ++ b) q :: rest else part :: word
  | _, _ => part :: word

/-- A text in double quotes. If only the list of all arguments stands there, the quotes leave
nothing behind. -/
def quotedWord (word : Word) : Word :=
  if word = [.value "@" true] then word else .text "" true :: word

/-- The parts of a word at the start of a text, and what follows; `fuel` exceeds its length. -/
def readParts : Nat → Place → List Char → Except Octets (Word × List Char)
  | 0, _, rest => .ok ([], rest)
  | _ + 1, .quoted, [] => .error "Unterminated quoted string"
  | _ + 1, _, [] => .ok ([], [])
  | fuel + 1, place, c :: rest => do
    let add (part : Part) (rest : List Char) : Except Octets (Word × List Char) := do
      let (more, rest) ← readParts fuel place rest
      return (addPart part more, rest)
    match place, c, rest with
    | _, '\\', '\n' :: rest => readParts fuel place rest
    | _, '\\', d :: rest =>
      add (.text (if place.escapes d then String.singleton d else String.ofList ['\\', d]) true) rest
    | .bare, '\'', rest =>
      let inside := rest.takeWhile (· ≠ '\'')
      if inside.length = rest.length then throw "Unterminated quoted string"
      add (.text (String.ofList inside) true) (rest.drop (inside.length + 1))
    | .bare, '"', rest =>
      let (inside, rest) ← readParts fuel .quoted rest
      let (more, rest) ← readParts fuel .bare rest
      return (quotedWord inside ++ more, rest)
    | .quoted, '"', rest => return ([], rest)
    | _, '$', rest =>
      match readParameter? rest with
      | some (name, rest) => add (.value name (place ≠ .bare)) rest
      | none => add (.text "$" (place ≠ .bare)) rest
    | .bare, c, rest =>
      if endsWord c then return ([], c :: rest)
      add (.text (String.singleton c) false) rest
    | _, c, rest => add (.text (String.singleton c) true) rest

/-- The text of a word that is nothing but text without quotes. -/
def Word.bare? : Word → Option Octets
  | [] => some ""
  | [.text octets false] => some octets
  | _ => none

/-! ### Tokens -/

/-- The rest of a script behind blanks, line ends that a backslash takes away, and a comment. -/
def skipBlanks : List Char → List Char
  | ' ' :: rest | '\t' :: rest | '\\' :: '\n' :: rest => skipBlanks rest
  | '#' :: rest => rest.dropWhile (· ≠ '\n')
  | rest => rest

/-- The operators, the longer ones first. -/
def operators : List Octets := ["&&", "||", ";;", "&", "|", ";", "(", ")"]

/-- The operators that redirect, the longer ones first, with where they lead and the descriptor that
is meant if none is given. -/
def redirections : List (Octets × Direction × Nat) :=
  [("<<", .document, 0), ("<&", .copy, 0), ("<", .input, 0), (">>", .append, 1), (">&", .copy, 1),
   (">|", .output, 1), (">", .output, 1)]

/-- The redirection at the start of a text, and what follows. -/
def readRedirection? (text : List Char) : Option (Token × List Char) :=
  let (given, text) : Option Nat × List Char := match text with
    | c :: rest => if c.isDigit then (some (c.toNat - '0'.toNat), rest) else (none, text)
    | [] => (none, [])
  (redirections.find? fun entry => entry.1.toList.isPrefixOf text).map
    fun (operator, direction, usual) =>
      (.redirect (given.getD usual) direction, text.drop operator.length)

/-- Reads the next token of a script. -/
def readToken : Read Token := do
  let reader ← get
  if let some token := reader.again then
    set { reader with again := none }
    return token
  let text := skipBlanks reader.rest
  let line (rest : List Char) : Nat :=
    reader.line + (reader.rest.take (reader.rest.length - rest.length)).count '\n'
  let finish (token : Token) (rest : List Char) : Read Token := do
    set { reader with rest, line := line rest }
    return token
  match text, readRedirection? text, operators.find? fun sign => sign.toList.isPrefixOf text with
  | [], _, _ => finish .endOfFile []
  | '\n' :: rest, _, _ =>
    set { reader with rest, line := line rest + reader.passed, passed := 0 }
    return .newline
  | _, some (token, rest), _ => finish token rest
  | text, _, some sign => finish (.sign sign) (text.drop sign.length)
  | text, none, none =>
    match readParts (text.length + 1) .bare text with
    | .ok (word, rest) => finish (.word word) rest
    | .error reason =>
      set { reader with line := line [] }
      fail reason

/-- Reads the next token behind any line ends; `fuel` exceeds their number. -/
def readBehindLines : Nat → Read Token
  | 0 => return .endOfFile
  | fuel + 1 => do
    match ← readToken with
    | .newline => readBehindLines fuel
    | token => return token

/-- Reads the next token, behind any line ends if `skips`. A word that is a keyword is one. -/
def readSign (skips : Bool) : Read Token := do
  let token ← if skips then readBehindLines ((← get).rest.length + 2) else readToken
  match token with
  | .word word =>
    return match word.bare? with
      | some text => if keywords.contains text then .sign text else token
      | none => token
  | token => return token

/-- Reads an operator or a keyword that has to come next. -/
def expect (skips : Bool) (sign : Octets) : Read Unit := do
  let token ← readSign skips
  if token ≠ .sign sign then unexpected token (some (.sign sign))

/-! ### Simple commands -/

/-- Cuts the document that a mark ends out of what follows the line that is read. -/
def cutDocument (mark : Octets) : Read Octets := do
  let reader ← get
  let front := reader.rest.takeWhile (· ≠ '\n')
  let lines := Text.splitBy (· = '\n') (reader.rest.drop (front.length + 1))
  let inside := lines.takeWhile fun line => String.ofList line ≠ mark
  let later := lines.drop (inside.length + 1)
  let rest := front ++ '\n' :: Text.joinWith ['\n'] later
  set { reader with rest, passed := reader.passed + inside.length + 1 }
  return String.ofList (inside.flatMap fun line => line ++ ['\n'])

/-- Reads where a redirection leads. -/
def readTarget (descriptor : Nat) (direction : Direction) : Read Redirect := do
  match ← readToken, direction with
  | .word word, .document =>
    let mark := String.join (word.map fun part => match part with
      | .text octets _ => octets
      | .value name _ => "$" ++ name)
    let text ← cutDocument mark
    if word.bare?.isNone then return ⟨descriptor, .document, [.text text true]⟩
    match readParts (text.length + 1) .document text.toList with
    | .ok (word, _) => return ⟨descriptor, .document, word⟩
    | .error reason => fail reason
  | .word word, direction => return ⟨descriptor, direction, word⟩
  | token, _ => unexpected token none

/-- The name and the value of a word that is an assignment. -/
def assignment? : Word → Option (Octets × Word)
  | .text octets false :: rest =>
    let name := octets.toList.takeWhile (· ≠ '=')
    let value := octets.toList.drop (name.length + 1)
    if name.length < octets.length && isName name then
      some (String.ofList name,
        if value.isEmpty then rest else .text (String.ofList value) false :: rest)
    else none
  | _ => none

/-- Reads the rest of a simple command. -/
def readSimple (line : Nat) :
    Nat → List (Octets × Word) → List Word → List Redirect → Read Node
  | 0, assignments, words, redirects => return .simple line assignments words redirects
  | fuel + 1, assignments, words, redirects => do
    match ← readToken with
    | .word word =>
      match words, assignment? word with
      | [], some assignment => readSimple line fuel (assignments ++ [assignment]) [] redirects
      | _, _ => readSimple line fuel assignments (words ++ [word]) redirects
    | .redirect descriptor direction =>
      let redirect ← readTarget descriptor direction
      readSimple line fuel assignments words (redirects ++ [redirect])
    | token =>
      putBack token
      return .simple line assignments words redirects

/-- Reads the redirections behind a command. -/
def readRedirects : Nat → Read (List Redirect)
  | 0 => return []
  | fuel + 1 => do
    match ← readSign false with
    | .redirect descriptor direction =>
      let redirect ← readTarget descriptor direction
      return redirect :: (← readRedirects fuel)
    | token =>
      putBack token
      return []

/-- Reads the words that a variable goes through, up to the end of the line or a semicolon. -/
def readEachWords : Nat → Read (List Word)
  | 0 => return []
  | fuel + 1 => do
    match ← readToken with
    | .word word => return word :: (← readEachWords fuel)
    | .newline | .sign ";" => return []
    | token => unexpected token none

/-! ### All commands -/

/-- Whether a token ends a list of commands inside a command. -/
def Token.endsList : Token → Bool
  | .sign text =>
    [")", ";;", "do", "done", "elif", "else", "esac", "fi", "then", "\x7d"].contains text
  | _ => false

mutual

/-- Reads a command of a pipeline. -/
def readCommand : Nat → Bool → Read Node
  | 0, _ => fail "too deep"
  | fuel + 1, skips => do
    let token ← readSign skips
    let line := (← get).line
    let grouped (inner : Bool) (command : Node) : Read Node := do
      return .group line inner command (← readRedirects ((← get).rest.length + 2))
    match token with
    | .word _ | .redirect _ _ =>
      putBack token
      readSimple line ((← get).rest.length + 2) [] [] []
    | .sign "if" => grouped false (← readChoice fuel)
    | .sign "for" => grouped false (← readEach fuel line)
    | .sign "\x7b" =>
      let command ← readList fuel false false .nothing
      expect false "\x7d"
      grouped false command
    | .sign "(" =>
      let command ← readList fuel false false .nothing
      expect false ")"
      grouped true command
    | token => unexpected token none

/-- Reads a condition behind its first keyword. -/
def readChoice : Nat → Read Node
  | 0 => fail "too deep"
  | fuel + 1 => do
    let test ← readList fuel false false .nothing
    expect false "then"
    let ifTrue ← readList fuel false false .nothing
    match ← readSign false with
    | .sign "elif" => return .choice test ifTrue (← readChoice fuel)
    | .sign "else" =>
      let ifFalse ← readList fuel false false .nothing
      expect false "fi"
      return .choice test ifTrue ifFalse
    | .sign "fi" => return .choice test ifTrue .nothing
    | token => unexpected token (some (.sign "fi"))

/-- Reads a loop over words behind its first keyword. -/
def readEach : Nat → Nat → Read Node
  | 0, _ => fail "too deep"
  | fuel + 1, line => do
    let name := match ← readToken with
      | .word word => word.bare?.getD ""
      | _ => ""
    if !isName name.toList then fail "Bad for loop variable"
    let words ← match ← readSign true with
      | .sign "in" => readEachWords ((← get).rest.length + 2)
      | .sign ";" => pure [[.value "@" true]]
      | token => do
        putBack token
        pure [[.value "@" true]]
    expect true "do"
    let body ← readList fuel false false .nothing
    expect false "done"
    return .each line name words body

/-- Reads the commands of a pipeline behind the first. -/
def readPipes : Nat → Read (List Node)
  | 0 => fail "too deep"
  | fuel + 1 => do
    match ← readToken with
    | .sign "|" =>
      let command ← readCommand fuel true
      return command :: (← readPipes fuel)
    | token =>
      putBack token
      return []

def readPipeline : Nat → Bool → Read Node
  | 0, _ => fail "too deep"
  | fuel + 1, skips => do
    match ← readSign skips with
    | .sign "!" => return .negation (← readPipeline fuel false)
    | token =>
      putBack token
      let first ← readCommand fuel false
      let more ← readPipes fuel
      return if more.isEmpty then first else .pipeline (first :: more)

/-- Reads the pipelines that depend on those before them. -/
def readDependent : Nat → Node → Read Node
  | 0, _ => fail "too deep"
  | fuel + 1, command => do
    match ← readToken with
    | .sign "&&" => readDependent fuel (.both command (← readPipeline fuel true))
    | .sign "||" => readDependent fuel (.either command (← readPipeline fuel true))
    | token =>
      putBack token
      return command

/-- Reads the commands of a list. At the top, a list ends with its line; `mayEnd` says whether it may
end where it is. -/
def readList : Nat → Bool → Bool → Node → Read Node
  | 0, _, _, _ => fail "too deep"
  | fuel + 1, top, mayEnd, commands => do
    let token ← readSign (!top)
    match token with
    | .newline => return commands
    | token =>
      putBack token
      if token = .endOfFile || mayEnd && token.endsList then return commands
      let first ← readPipeline fuel (!top)
      let command ← readDependent fuel first
      let commands := match commands with
        | .nothing => command
        | commands => .sequence commands command
      match ← readToken with
      | .sign ";" | .sign "&" => readList fuel top (!top) commands
      | .newline => if top then return commands else readList fuel top true commands
      | token =>
        if top && token ≠ .endOfFile then unexpected token none
        putBack token
        return commands

end

/-- Reads the next command of a script, which is empty on an empty line; `none` at the end. -/
def Reader.nextCommand (reader : Reader) : Except SyntaxFault (Option (Node × Reader)) := do
  let fuel := 8 * reader.rest.length + 8
  let (command, after) ← (readList fuel true false .nothing).run { reader with again := none }
  return if after.again = some .endOfFile && command matches .nothing then none
    else some (command, after)

end Bindery.Shell
