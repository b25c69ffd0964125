import Bindery.Decimal.Shortest
import Bindery.Json.Literal

/-!
# Number literals

`Literal.scan` reads the longest number literal at the start of a text, and `Literal.number` is the
number it denotes: a natural or a negative integer of at most 64 bits where the literal has no
fraction and no exponent, and a double otherwise. A double is found from the leading digits that
fit 64 bits by one multiplication or division by a power of ten.
-/

set_option autoImplicit false
set_option relaxedAutoImplicit false

namespace Bindery.Json

/-- A number literal in its parts. An exponent holds whether it is negative, and its digits. -/
structure Literal where
  negative : Bool
  whole : List Char
  fraction : Option (List Char)
  exponent : Option (Bool × List Char)
  deriving DecidableEq

/-- The whole digits of a literal: a lone zero, or digits that do not start with one. -/
def Literal.scanWhole (atEnd : Reason) : List Char → Scan (List Char)
  | [] => .error (.before atEnd [])
  | c :: s =>
    if c = '0' then
      match s with
      | d :: _ => if d.isDigit then .error (.behind .invalidNumber s) else .ok ([c], s)
      | [] => .ok ([c], s)
    else if c.isDigit then .ok (c :: s.takeWhile Char.isDigit, s.dropWhile Char.isDigit)
    else .error (.behind .invalidNumber (c :: s))

/-- The fraction of a literal, if a point follows. -/
def Literal.scanFraction (atEnd : Reason) : List Char → Scan (Option (List Char))
  | [] => .ok (none, [])
  | c :: s =>
    if c = '.' then
      match s with
      | [] => .error (.behind atEnd [])
      | d :: _ =>
        if d.isDigit then .ok (some (s.takeWhile Char.isDigit), s.dropWhile Char.isDigit)
        else .error (.behind .invalidNumber s)
    else .ok (none, c :: s)

/-- The digits of an exponent. -/
def Literal.scanPower (atEnd : Reason) : List Char → Scan (List Char)
  | [] => .error (.before atEnd [])
  | c :: s =>
    if c.isDigit then .ok (c :: s.takeWhile Char.isDigit, s.dropWhile Char.isDigit)
    else .error (.behind .invalidNumber (c :: s))

/-- The exponent of a literal, if its letter follows. -/
def Literal.scanExponent (atEnd : Reason) : List Char → Scan (Option (Bool × List Char))
  | [] => .ok (none, [])
  | c :: s =>
    if c = 'e' ∨ c = 'E' then
      let (negative, s) := match s with
        | '+' :: s => (false, s)
        | '-' :: s => (true, s)
        | s => (false, s)
      (Literal.scanPower atEnd s).map fun (digits, s) => (some (negative, digits), s)
    else .ok (none, c :: s)

/-- Reads the literal at the start of a text; `atEnd` is the reason to give where the text ends
too early. -/
def Literal.scan (atEnd : Reason) (s : List Char) : Except Fault (Literal × List Char) := do
  let (negative, s) := match s with
    | '-' :: s => (true, s)
    | s => (false, s)
  let (whole, s) ← scanWhole atEnd s
  let (fraction, s) ← scanFraction atEnd s
  let (exponent, s) ← scanExponent atEnd s
  return (⟨negative, whole, fraction, exponent⟩, s)

/-- What a literal denotes. -/
inductive Number
  | natural (value : Nat)
  | negative (magnitude : Nat)
  | real (value : Float)

def digitValue (c : Char) : Nat := c.toNat - 48

/-- Appends digits to a number while it fits 64 bits, and gives the count of digits left over. -/
def absorb (significand : Nat) : List Char → Nat × Nat
  | [] => (significand, 0)
  | c :: s =>
    let longer := significand * 10 + digitValue c
    if longer < 0x10000000000000000 then absorb longer s else (significand, s.length + 1)

/-- The value of the digits of an exponent, or how many of them follow the one that takes it past
31 bits. -/
def exponentValue (value : Nat) : List Char → Except Nat Nat
  | [] => .ok value
  | c :: s =>
    let larger := value * 10 + digitValue c
    if larger < 0x80000000 then exponentValue larger s else .error s.length

/-- `significand * 10 ^ exponent` by steps of at most 308 powers of ten, if it is finite. -/
def scaleFloat : Nat → Float → Int → Option Float
  | 0, value, _ => some value
  | fuel + 1, value, exponent =>
    if exponent.natAbs ≤ 308 then
      if 0 ≤ exponent then
        let product := value * Float.ofScientific 1 false exponent.natAbs
        if product.isInf then none else some product
      else some (value / Float.ofScientific 1 false exponent.natAbs)
    else if value == 0 then some value
    else if 0 ≤ exponent then none
    else scaleFloat fuel (value / Float.ofScientific 1 false 308) (exponent + 308)

/-- The double of a literal with a fraction, an exponent or more than 64 bits. Where it is too
large, the count of digits that follow the place where that is seen. -/
def Literal.real (literal : Literal) : Except Nat Float :=
  let signed (value : Float) := if literal.negative then -value else value
  let (significand, skipped) := absorb 0 literal.whole
  let fraction := literal.fraction.getD []
  let (significand, ignored) := absorb significand fraction
  let start : Int := (skipped : Int) - ((fraction.length - ignored : Nat) : Int)
  let scaled (exponent : Int) :=
    match scaleFloat 12 (Float.ofNat significand) exponent with
    | some value => .ok (signed value)
    | none => .error 0
  match literal.exponent with
  | none => scaled start
  | some (negative, digits) =>
    match exponentValue 0 digits with
    | .ok power => scaled (if negative then start - power else start + power)
    | .error left => if significand ≠ 0 ∧ ¬ negative then .error left else .ok (signed 0)

/-- The number that a literal denotes, or, where no double can hold it, the count of digits that
follow the place where that is seen. -/
def Literal.number (literal : Literal) : Except Nat Number :=
  if literal.fraction.isNone ∧ literal.exponent.isNone ∧ (absorb 0 literal.whole).2 = 0 then
    let value := (absorb 0 literal.whole).1
    if ¬ literal.negative then .ok (.natural value)
    else if 0 < value ∧ value ≤ 0x8000000000000000 then .ok (.negative value)
    else .ok (.real (-(Float.ofNat value)))
  else literal.real.map .real

/-- Digits with a point in front of the last `places`. -/
def withPoint (digits : List Char) (places : Nat) : List Char :=
  digits.take (digits.length - places) ++ '.' :: digits.drop (digits.length - places)

/-- A double in the fewest digits that read back: positional with at least one decimal place from
`1e-5` up to, but without, `1e16`, and otherwise with one digit before the point, if it needs one,
and a signed exponent. -/
def writeReal (value : Float) : String :=
  let minus := if value.toBits.toNat / 0x8000000000000000 = 1 then ['-'] else []
  let scaled := (Decimal.Binary.ofFloat value).shortest
  let body :=
    if value == 0 then ['0', '.', '0']
    else
      let digits := Nat.toDigits 10 scaled.digits
      let power := scaled.exponent + digits.length - 1
      if -5 ≤ power ∧ power ≤ 15 then
        if 0 ≤ scaled.exponent then
          withPoint (digits ++ List.replicate (scaled.exponent.toNat + 1) '0') 1
        else
          let places := scaled.exponent.natAbs
          withPoint (List.replicate (places + 1 - digits.length) '0' ++ digits) places
      else
        let mantissa := if digits.length = 1 then digits else withPoint digits (digits.length - 1)
        mantissa ++ ['e', if power < 0 then '-' else '+'] ++ Nat.toDigits 10 power.natAbs
  String.ofList (minus ++ body)

def Number.found : Number → Found
  | .natural value => .integer value
  | .negative magnitude => .integer (-(magnitude : Int))
  | .real value => .real (writeReal value)

/-- Reads a number literal and what it denotes. -/
def number (s : List Char) : Except Fault (Number × List Char) := do
  let (literal, s) ← Literal.scan .endOfValue s
  match literal.number with
  | .ok value => return (value, s)
  | .error left => throw ⟨.numberOutOfRange, byteLength s + left⟩

end Bindery.Json
