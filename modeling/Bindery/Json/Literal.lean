import Bindery.Json.Problem

/-!
# Words and string literals

The parts of a JSON document that hold no other value: blanks, the words `null`, `true` and
`false`, and string literals. A string literal comes in two readings. `textBody` decodes it;
`skipTextBody` only finds its end, and so lets any four hexadecimal digits pass as an escape.
-/

set_option autoImplicit false
set_option relaxedAutoImplicit false

namespace Bindery.Json

/-- What a reading step answers: a value and the unread text. -/
abbrev Scan (α : Type) := Except Fault (α × List Char)

def isSpace (c : Char) : Bool := c = ' ' || c = '\n' || c = '\t' || c = '\r'

def skipSpaces (s : List Char) : List Char := s.dropWhile isSpace

/-- Reads the given letters. -/
def word : List Char → List Char → Except Fault (List Char)
  | [], s => .ok s
  | _ :: _, [] => .error (.before .endOfValue [])
  | letter :: letters, c :: s =>
    if c = letter then word letters s else .error (.behind .expectedWord (c :: s))

def hexValue? (c : Char) : Option Nat :=
  if '0' ≤ c ∧ c ≤ '9' then some (c.toNat - 48)
  else if 'a' ≤ c ∧ c ≤ 'f' then some (c.toNat - 87)
  else if 'A' ≤ c ∧ c ≤ 'F' then some (c.toNat - 55)
  else none

/-- The number that four hexadecimal digits at the start of a text write. -/
def hexQuad? : List Char → Option (Nat × List Char)
  | a :: b :: c :: d :: s => do
    let a ← hexValue? a
    let b ← hexValue? b
    let c ← hexValue? c
    let d ← hexValue? d
    return (((a * 16 + b) * 16 + c) * 16 + d, s)
  | _ => none

/-- The four digits after `\u`. They are four bytes, whatever those hold. -/
def hexEscape (s : List Char) : Scan Nat :=
  match hexQuad? s with
  | some found => .ok found
  | none =>
    if byteLength s < 4 then .error (.before .endOfText [])
    else .error ⟨.invalidEscape, byteLength s - 4⟩

def isHighSurrogate (n : Nat) : Bool := 0xd800 ≤ n && n ≤ 0xdbff

def isLowSurrogate (n : Nat) : Bool := 0xdc00 ≤ n && n ≤ 0xdfff

/-- Reads one given character of the second half of a surrogate pair. -/
def pairMark (mark : Char) : List Char → Except Fault (List Char)
  | [] => .error (.before .endOfText [])
  | c :: s => if c = mark then .ok s else .error (.behind .unfinishedSurrogatePair (c :: s))

/-- The character written by what follows `\u`. -/
def unicodeEscape (s : List Char) : Except Fault (Char × List Char) := do
  let (first, s) ← hexEscape s
  if isLowSurrogate first then throw (.before .loneSurrogate s)
  if isHighSurrogate first then
    let s ← pairMark '\\' s
    let s ← pairMark 'u' s
    let (second, s) ← hexEscape s
    if !isLowSurrogate second then throw (.before .loneSurrogate s)
    return (Char.ofNat ((first - 0xd800) * 0x400 + (second - 0xdc00) + 0x10000), s)
  return (Char.ofNat first, s)

/-- The character that stands for itself or for a control after a backslash. -/
def shortEscape? (c : Char) : Option Char :=
  if c = '"' ∨ c = '\\' ∨ c = '/' then some c
  else if c = 'b' then some '\x08'
  else if c = 'f' then some '\x0c'
  else if c = 'n' then some '\n'
  else if c = 'r' then some '\r'
  else if c = 't' then some '\t'
  else none

/-- The character written by what follows a backslash. -/
def escape : List Char → Scan Char
  | [] => .error (.before .endOfText [])
  | c :: s =>
    if c = 'u' then unicodeEscape s
    else match shortEscape? c with
      | some character => .ok (character, s)
      | none => .error (.behind .invalidEscape (c :: s))

/-- The rest of a string literal after its opening quote; `done` are the characters already read,
the last one first. -/
def textBody : Nat → List Char → List Char → Scan (List Char)
  | 0, _, s => .error (.before .endOfText s)
  | _ + 1, _, [] => .error (.before .endOfText [])
  | fuel + 1, done, c :: s =>
    if c = '"' then .ok (done.reverse, s)
    else if c = '\\' then
      match escape s with
      | .ok (character, s) => textBody fuel (character :: done) s
      | .error fault => .error fault
    else if c.toNat < 0x20 then .error (.behind .controlCharacter (c :: s))
    else textBody fuel (c :: done) s

/-- Passes over what follows a backslash. -/
def skipEscape : List Char → Except Fault (List Char)
  | [] => .error (.before .endOfText [])
  | c :: s =>
    if c = 'u' then (hexEscape s).map Prod.snd
    else match shortEscape? c with
      | some _ => .ok s
      | none => .error (.behind .invalidEscape (c :: s))

/-- Passes over the rest of a string literal after its opening quote. -/
def skipTextBody : Nat → List Char → Except Fault (List Char)
  | 0, s => .error (.before .endOfText s)
  | _ + 1, [] => .error (.before .endOfText [])
  | fuel + 1, c :: s =>
    if c = '"' then .ok s
    else if c = '\\' then
      match skipEscape s with
      | .ok s => skipTextBody fuel s
      | .error fault => .error fault
    else if c.toNat < 0x20 then .error (.before .controlCharacter (c :: s))
    else skipTextBody fuel s

end Bindery.Json
