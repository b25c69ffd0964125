import Bindery.Text.Blank

/-!
# Strings and lists as TOML writes them

`writeString` chooses the plainest of five notations that can hold a string, and escapes only what
the notation cannot hold. `writeStrings` puts a list on one line if it has at most one element, and
else gives each element a line.
-/

set_option autoImplicit false
set_option relaxedAutoImplicit false

namespace Bindery.Toml

/-- The notations of a string. -/
inductive Style
  | basic
  | literal
  | basicLines
  | literalLines
  deriving DecidableEq

/-- A control that no notation holds as it is; tabs and ends of lines are none. -/
def isControl (c : Char) : Bool := (c.toNat < 0x20 && c ≠ '\t' && c ≠ '\n') || c.toNat = 0x7f

/-- Whether a text has three of a character in a row. -/
def hasTriple (quote : Char) : List Char → Bool
  | a :: b :: c :: s =>
    (a = quote && b = quote && c = quote) || hasTriple quote (b :: c :: s)
  | _ => false

/-- The notation of a string. -/
def Style.choose (s : List Char) : Style :=
  let plain := !s.any isControl
  let oneLine := !s.contains '\n'
  let backslash := s.contains '\\'
  if plain && !backslash && !s.contains '"' && oneLine then .basic
  else if plain && !s.contains '\'' && oneLine then .literal
  else if plain && !backslash && !hasTriple '"' s then .basicLines
  else if plain && !hasTriple '\'' s then .literalLines
  else if oneLine then .basic
  else .basicLines

/-- A hexadecimal digit in upper case. -/
def hexUpper (n : Nat) : Char := (Nat.digitChar n).toUpper

/-- A character other than a quote in a basic notation. -/
def escapeChar (lines : Bool) (c : Char) : List Char :=
  if c = '\x08' then ['\\', 'b']
  else if c = '\t' then ['\\', 't']
  else if c = '\n' then if lines then ['\n'] else ['\\', 'n']
  else if c = '\x0c' then ['\\', 'f']
  else if c = '\r' then ['\\', 'r']
  else if c = '\\' then ['\\', '\\']
  else if isControl c then ['\\', 'u', '0', '0', hexUpper (c.toNat / 16), hexUpper (c.toNat % 16)]
  else [c]

/-- The characters of a string in a basic notation. Of the quotes in a row, `most` at a time stand
for themselves, and `run` counts those in front of the text that do. -/
def escapeFrom (lines : Bool) (most : Nat) : Nat → List Char → List Char
  | _, [] => []
  | run, c :: s =>
    if c = '"' then
      if run < most then c :: escapeFrom lines most (run + 1) s
      else '\\' :: '"' :: escapeFrom lines most 0 s
    else escapeChar lines c ++ escapeFrom lines most 0 s

/-- An end of line, if a string has one. -/
def leadingNewline (s : List Char) : List Char := if s.contains '\n' then ['\n'] else []

/-- A string in a given notation. -/
def writeStyled (s : List Char) : Style → List Char
  | .basic => ['"'] ++ escapeFrom false 0 0 s ++ ['"']
  | .literal => ['\''] ++ s ++ ['\'']
  | .basicLines => ['"', '"', '"'] ++ leadingNewline s ++ escapeFrom true 2 0 s ++ ['"', '"', '"']
  | .literalLines => ['\'', '\'', '\''] ++ leadingNewline s ++ s ++ ['\'', '\'', '\'']

def writeString (s : String) : List Char := writeStyled s.toList (.choose s.toList)

/-- A list of strings. -/
def writeStrings (items : List String) : List Char :=
  match items with
  | [] => ['[', ']']
  | [item] => '[' :: writeString item ++ [']']
  | items =>
    ['[', '\n'] ++
      items.flatMap (fun item => [' ', ' ', ' ', ' '] ++ writeString item ++ [',', '\n']) ++
      [']']

end Bindery.Toml
