/-!
# Blanks, comments and strings of TOML

The parts of a TOML document that hold no other value. Each reading function takes its part from the
start of a text and answers `none` where the text does not start with one.
-/

set_option autoImplicit false
set_option relaxedAutoImplicit false

namespace Bindery.Toml

def isBlank (c : Char) : Bool := c = ' ' || c = '\t'

def skipBlanks (s : List Char) : List Char := s.dropWhile isBlank

/-- Tabs and every character that is not a control. -/
def isPlain (c : Char) : Bool := c = '\t' || (0x20 ≤ c.toNat && c.toNat ≠ 0x7f)

/-- Reads the end of a line. -/
def newline? : List Char → Option (List Char)
  | '\n' :: s => some s
  | '\r' :: '\n' :: s => some s
  | _ => none

/-- Passes over a comment, if there is one, up to the end of its line. -/
def skipComment : List Char → List Char
  | '#' :: s => s.dropWhile isPlain
  | s => s

/-- Reads blanks and a comment up to the end of the line or of the document. -/
def lineEnd? (s : List Char) : Option (List Char) :=
  match skipComment (skipBlanks s) with
  | [] => some []
  | rest => newline? rest

/-- Passes over blanks, ends of lines and comments that have one. -/
def skipLines : Nat → List Char → List Char
  | 0, s => s
  | fuel + 1, s =>
    match skipBlanks s with
    | '#' :: rest =>
      match newline? (skipComment ('#' :: rest)) with
      | some rest => skipLines fuel rest
      | none => '#' :: rest
    | rest =>
      match newline? rest with
      | some rest => skipLines fuel rest
      | none => rest

/-! ### Strings on one line -/

def hexDigit? (c : Char) : Option Nat :=
  if '0' ≤ c ∧ c ≤ '9' then some (c.toNat - 48)
  else if 'a' ≤ c ∧ c ≤ 'f' then some (c.toNat - 87)
  else if 'A' ≤ c ∧ c ≤ 'F' then some (c.toNat - 55)
  else none

/-- The number that exactly `count` hexadecimal digits write. -/
def hexNumber? : Nat → Nat → List Char → Option (Nat × List Char)
  | 0, value, s => some (value, s)
  | _ + 1, _, [] => none
  | count + 1, value, c :: s =>
    match hexDigit? c with
    | some digit => hexNumber? count (value * 16 + digit) s
    | none => none

/-- The character with a code point given by `count` hexadecimal digits. -/
def codePoint? (count : Nat) (s : List Char) : Option (Char × List Char) := do
  let (value, s) ← hexNumber? count 0 s
  if h : value.isValidChar then return (Char.ofNatAux value h, s) else none

/-- The character written by what follows a backslash. -/
def escape? : List Char → Option (Char × List Char)
  | 'b' :: s => some ('\x08', s)
  | 't' :: s => some ('\t', s)
  | 'n' :: s => some ('\n', s)
  | 'f' :: s => some ('\x0c', s)
  | 'r' :: s => some ('\r', s)
  | '"' :: s => some ('"', s)
  | '\\' :: s => some ('\\', s)
  | 'u' :: s => codePoint? 4 s
  | 'U' :: s => codePoint? 8 s
  | _ => none

/-- The rest of a basic string after its opening quote. -/
def basicBody? : Nat → List Char → Option (List Char × List Char)
  | 0, _ => none
  | _ + 1, [] => none
  | fuel + 1, c :: s =>
    if c = '"' then some ([], s)
    else if c = '\\' then do
      let (character, s) ← escape? s
      let (body, s) ← basicBody? fuel s
      return (character :: body, s)
    else if isPlain c then (basicBody? fuel s).map fun (body, s) => (c :: body, s)
    else none

/-- The rest of a literal string after its opening quote. -/
def literalBody? : List Char → Option (List Char × List Char)
  | [] => none
  | c :: s =>
    if c = '\'' then some ([], s)
    else if isPlain c then (literalBody? s).map fun (body, s) => (c :: body, s)
    else none

/-! ### Strings over several lines -/

/-- Drops an end of line right after the opening quotes. -/
def dropFirstNewline (s : List Char) : List Char := (newline? s).getD s

/-- Passes over blanks and ends of lines. -/
def skipBlankLines : Nat → List Char → List Char
  | 0, s => s
  | fuel + 1, s =>
    match newline? (skipBlanks s) with
    | some rest => skipBlankLines fuel rest
    | none => skipBlanks s

/-- The quotes at the start of a text, at most five, as what they stand for at the end of a string:
three of them close it, and one or two more belong to it. -/
def closing? (quote : Char) (s : List Char) : Option (List Char × List Char) :=
  let quotes := s.takeWhile (· = quote)
  if quotes.length < 3 then none
  else
    let extra := min (quotes.length - 3) 2
    some (List.replicate extra quote, s.drop (extra + 3))

/-- The rest of a basic string over several lines. A backslash at the end of a line joins it to the
next character that is neither a blank nor an end of line. -/
def basicLines? : Nat → List Char → Option (List Char × List Char)
  | 0, _ => none
  | _ + 1, [] => none
  | fuel + 1, c :: s =>
    let next (character : Char) (rest : List Char) :=
      (basicLines? fuel rest).map fun (body, rest) => (character :: body, rest)
    if c = '"' then
      match closing? '"' (c :: s) with
      | some done => some done
      | none => next '"' s
    else if c = '\\' then
      match newline? (skipBlanks s) with
      | some rest => basicLines? fuel (skipBlankLines (rest.length + 1) rest)
      | none => do
        let (character, s) ← escape? s
        next character s
    else match newline? (c :: s) with
      | some rest => next '\n' rest
      | none => if isPlain c then next c s else none

/-- The rest of a literal string over several lines. -/
def literalLines? : Nat → List Char → Option (List Char × List Char)
  | 0, _ => none
  | _ + 1, [] => none
  | fuel + 1, c :: s =>
    let next (character : Char) (rest : List Char) :=
      (literalLines? fuel rest).map fun (body, rest) => (character :: body, rest)
    if c = '\'' then
      match closing? '\'' (c :: s) with
      | some done => some done
      | none => next '\'' s
    else match newline? (c :: s) with
      | some rest => next '\n' rest
      | none => if isPlain c then next c s else none

/-- Reads a string on one line. -/
def lineString? (fuel : Nat) : List Char → Option (List Char × List Char)
  | '"' :: s => basicBody? fuel s
  | '\'' :: s => literalBody? s
  | _ => none

/-- Reads a string of any kind. -/
def string? (fuel : Nat) : List Char → Option (List Char × List Char)
  | '"' :: '"' :: '"' :: s => basicLines? fuel (dropFirstNewline s)
  | '\'' :: '\'' :: '\'' :: s => literalLines? fuel (dropFirstNewline s)
  | s => lineString? fuel s

end Bindery.Toml
