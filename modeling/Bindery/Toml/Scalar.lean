import Bindery.Toml.Text
import Bindery.Toml.Value

/-!
# Numbers, points in time and booleans of TOML

A value that starts with a sign or a digit is a point in time, a real or an integer, in this order
of preference. Digits may be set apart by single underscores. Integers have 64 bits; a real may not
exceed the largest finite double unless it is negative or written `inf`.
-/

set_option autoImplicit false
set_option relaxedAutoImplicit false

namespace Bindery.Toml

/-! ### Digits -/

/-- Reads digits with single underscores between them; the first digit has been read. -/
def moreDigits? (isDigit : Char → Bool) : List Char → Option (List Char × List Char)
  | [] => some ([], [])
  | [c] => if c = '_' then none else if isDigit c then some ([c], []) else some ([], [c])
  | c :: d :: s =>
    if isDigit c then (moreDigits? isDigit (d :: s)).map fun (digits, s) => (c :: digits, s)
    else if c = '_' then
      if isDigit d then (moreDigits? isDigit (d :: s)) else none
    else some ([], c :: d :: s)

/-- Reads at least one digit. -/
def digits? (isDigit : Char → Bool) : List Char → Option (List Char × List Char)
  | [] => none
  | c :: s =>
    if isDigit c then (moreDigits? isDigit s).map fun (digits, s) => (c :: digits, s) else none

/-- Reads a sign, if there is one; `true` is minus. -/
def sign : List Char → Bool × List Char
  | '+' :: s => (false, s)
  | '-' :: s => (true, s)
  | s => (false, s)

/-- Reads a lone zero or digits that do not start with one. -/
def whole? : List Char → Option (List Char × List Char)
  | '0' :: s => some (['0'], s)
  | s => digits? Char.isDigit s

/-- The value of digits in a base up to sixteen. -/
def digitsValue (base : Nat) (digits : List Char) : Nat :=
  digits.foldl (fun value c => value * base + (hexDigit? c).getD 0) 0

/-! ### Integers -/

/-- The integer of a magnitude, if it has 64 bits. -/
def bounded? (negative : Bool) (magnitude : Nat) : Option Value :=
  if negative then
    if magnitude ≤ 0x8000000000000000 then some (.integer (-(magnitude : Int))) else none
  else if magnitude < 0x8000000000000000 then some (.integer magnitude)
  else none

/-- Reads the digits of an integer in a base of its own. -/
def based? (base : Nat) (isDigit : Char → Bool) (s : List Char) : Option (Value × List Char) := do
  let (digits, s) ← digits? isDigit s
  return (← bounded? false (digitsValue base digits), s)

def integer? : List Char → Option (Value × List Char)
  | '0' :: 'x' :: s => based? 16 (fun c => (hexDigit? c).isSome) s
  | '0' :: 'o' :: s => based? 8 (fun c => '0' ≤ c && c ≤ '7') s
  | '0' :: 'b' :: s => based? 2 (fun c => c = '0' || c = '1') s
  | s => do
    let (negative, s) := sign s
    let (digits, s) ← whole? s
    return (← bounded? negative (digitsValue 10 digits), s)

/-! ### Reals -/

/-- Whether `digits * 10 ^ exponent` is nearer to a finite double than to an infinite one. -/
def isFinite (digits : List Char) (exponent : Int) : Bool :=
  let significant := digits.dropWhile (· = '0')
  let point : Int := significant.length + exponent
  if significant.isEmpty || point < 309 then true
  else if 309 < point then false
  else
    digitsValue 10 significant * Nat.pow 10 exponent.toNat <
      (Nat.pow 2 1024 - Nat.pow 2 970) * Nat.pow 10 (-exponent).toNat

/-- Reads the fraction of a real. -/
def fraction? : List Char → Option (List Char × List Char)
  | '.' :: s => digits? Char.isDigit s
  | _ => none

/-- Reads the exponent of a real. -/
def exponent? : List Char → Option (Int × List Char)
  | c :: s =>
    if c = 'e' ∨ c = 'E' then do
      let (negative, s) := sign s
      let (digits, s) ← digits? Char.isDigit s
      let value : Int := digitsValue 10 digits
      return (if negative then -value else value, s)
    else none
  | [] => none

/-- Reads a real with a fraction, an exponent or both. -/
def real? (s : List Char) : Option (Value × List Char) := do
  let (negative, rest) := sign s
  let (whole, rest) ← whole? rest
  let (fraction, exponent, rest) ← match rest with
    | '.' :: _ => do
      let (fraction, rest) ← fraction? rest
      match rest with
      | c :: _ =>
        if c = 'e' ∨ c = 'E' then
          let (exponent, rest) ← exponent? rest
          some (fraction, exponent, rest)
        else some (fraction, 0, rest)
      | [] => some (fraction, 0, [])
    | _ => do
      let (exponent, rest) ← exponent? rest
      some ([], exponent, rest)
  if negative || isFinite (whole ++ fraction) (exponent - fraction.length) then
    return (.real (s.take (s.length - rest.length)), rest)
  else none

/-- Reads an infinity or what is not a number. -/
def special? (s : List Char) : Option (Value × List Char) :=
  match (sign s).2 with
  | 'i' :: 'n' :: 'f' :: rest => some (.real (s.take (s.length - rest.length)), rest)
  | 'n' :: 'a' :: 'n' :: rest => some (.real (s.take (s.length - rest.length)), rest)
  | _ => none

/-! ### Points in time -/

/-- Reads a number of exactly `count` digits. -/
def fixed? : Nat → Nat → List Char → Option (Nat × List Char)
  | 0, value, s => some (value, s)
  | _ + 1, _, [] => none
  | count + 1, value, c :: s =>
    if c.isDigit then fixed? count (value * 10 + (c.toNat - 48)) s else none

/-- Reads a number of exactly two digits in a range. -/
def twoDigits? (low high : Nat) (s : List Char) : Option (Nat × List Char) := do
  let (value, s) ← fixed? 2 0 s
  if low ≤ value ∧ value ≤ high then return (value, s) else none

/-- Reads one given character. -/
def mark? (mark : Char) : List Char → Option (List Char)
  | [] => none
  | c :: s => if c = mark then some s else none

def isLeapYear (year : Nat) : Bool := year % 4 = 0 && (year % 100 ≠ 0 || year % 400 = 0)

def daysInMonth (year month : Nat) : Nat :=
  if month = 2 then if isLeapYear year then 29 else 28
  else if month = 4 ∨ month = 6 ∨ month = 9 ∨ month = 11 then 30
  else 31

/-- Passes over a date. -/
def skipDate? (s : List Char) : Option (List Char) := do
  let (year, s) ← fixed? 4 0 s
  let (month, s) ← twoDigits? 1 12 (← mark? '-' s)
  let (_, s) ← twoDigits? 1 (daysInMonth year month) (← mark? '-' s)
  return s

/-- Passes over a time of day. -/
def skipTime? (s : List Char) : Option (List Char) := do
  let (_, s) ← twoDigits? 0 23 s
  let (_, s) ← twoDigits? 0 59 (← mark? ':' s)
  let (_, s) ← twoDigits? 0 60 (← mark? ':' s)
  match s with
  | '.' :: c :: s => if c.isDigit then return s.dropWhile Char.isDigit else none
  | '.' :: _ => none
  | s => return s

/-- Passes over the distance from Greenwich, if there is one. -/
def skipOffset? : List Char → Option (List Char)
  | c :: s =>
    if c = 'Z' ∨ c = 'z' then some s
    else if c = '+' ∨ c = '-' then do
      let (_, s) ← twoDigits? 0 23 s
      let (_, s) ← twoDigits? 0 59 (← mark? ':' s)
      return s
    else some (c :: s)
  | [] => some []

/-- Passes over a date, a time of day or both. -/
def skipMoment? (s : List Char) : Option (List Char) :=
  match skipDate? s with
  | none => skipTime? s
  | some rest =>
    match rest with
    | c :: time =>
      if c = 'T' ∨ c = 't' ∨ c = ' ' then
        match skipTime? time with
        | some rest => skipOffset? rest
        | none => some rest
      else some rest
    | [] => some []

def moment? (s : List Char) : Option (Value × List Char) :=
  (skipMoment? s).map fun rest => (.moment (s.take (s.length - rest.length)), rest)

/-! ### All of them -/

/-- Reads a value that is neither a string nor made of other values. -/
def scalar? (s : List Char) : Option (Value × List Char) :=
  match s with
  | 't' :: 'r' :: 'u' :: 'e' :: rest => some (.boolean true, rest)
  | 'f' :: 'a' :: 'l' :: 's' :: 'e' :: rest => some (.boolean false, rest)
  | _ => moment? s <|> real? s <|> special? s <|> integer? s

end Bindery.Toml
