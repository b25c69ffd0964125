import Bindery.Json.Number

/-!
# Values that are passed over

`skipValue` finds the end of a value of any shape without keeping it. The lists and objects that are
open are held in a list of their own, the innermost first, so no nesting is too deep. Numbers are
checked for their form only.
-/

set_option autoImplicit false
set_option relaxedAutoImplicit false

namespace Bindery.Json

/-- A list or an object that has been opened. -/
inductive Frame
  | list
  | object
  deriving DecidableEq

def Frame.close : Frame → Char
  | .list => ']'
  | .object => '\x7d'

def Frame.atEnd : Frame → Reason
  | .list => .endOfList
  | .object => .endOfObject

def Frame.expectedCommaOrEnd : Frame → Reason
  | .list => .expectedListCommaOrEnd
  | .object => .expectedObjectCommaOrEnd

/-- Where a walk through nested values stands: in front of a value, or inside the innermost open
frame, right after its opening or after one of its values. -/
inductive Stage
  | value
  | opened
  | filled
  deriving DecidableEq

/-- Reads the colon after a key. -/
def colon (s : List Char) : Except Fault (List Char) :=
  match skipSpaces s with
  | [] => .error (.behind .endOfObject [])
  | c :: s => if c = ':' then .ok s else .error (.behind .expectedColon (c :: s))

/-- Passes over the key that an object has in front of a value; a list has none. -/
def skipKey (budget : Nat) (s : List Char) : Frame → Except Fault (List Char)
  | .list => .ok s
  | .object =>
    match skipSpaces s with
    | [] => .error (.behind .endOfObject [])
    | c :: s =>
      if c = '"' then do colon (← skipTextBody budget s)
      else .error (.behind .keyIsNotText (c :: s))

/-- Passes over a value that is neither a list nor an object. -/
def skipScalar (budget : Nat) : List Char → Except Fault (List Char)
  | [] => .error (.behind .endOfValue [])
  | c :: s =>
    if c = 'n' then word ['u', 'l', 'l'] s
    else if c = 't' then word ['r', 'u', 'e'] s
    else if c = 'f' then word ['a', 'l', 's', 'e'] s
    else if c = '"' then skipTextBody budget s
    else if c = '-' ∨ c.isDigit then (Literal.scan .invalidNumber (c :: s)).map Prod.snd
    else .error (.behind .expectedValue (c :: s))

/-- Passes over values until every open frame is closed. Every second step uses up a character. -/
def skipOpen (budget : Nat) : Nat → Stage → List Frame → List Char → Except Fault (List Char)
  | 0, _, _, s => .error (.before .endOfValue s)
  | fuel + 1, .value, frames, s =>
    match skipSpaces s with
    | [] => .error (.behind .endOfValue [])
    | c :: s =>
      if c = '[' then skipOpen budget fuel .opened (.list :: frames) s
      else if c = '\x7b' then skipOpen budget fuel .opened (.object :: frames) s
      else match skipScalar budget (c :: s) with
        | .ok s => skipOpen budget fuel .filled frames s
        | .error fault => .error fault
  | _ + 1, _, [], s => .ok s
  | fuel + 1, stage, frame :: frames, s =>
    match skipSpaces s with
    | [] => .error (.behind frame.atEnd [])
    | c :: s =>
      if c = frame.close then skipOpen budget fuel .filled frames s
      else if stage = .opened then
        match skipKey budget (c :: s) frame with
        | .ok s => skipOpen budget fuel .value (frame :: frames) s
        | .error fault => .error fault
      else if c = ',' then
        match skipKey budget s frame with
        | .ok s => skipOpen budget fuel .value (frame :: frames) s
        | .error fault => .error fault
      else .error (.behind frame.expectedCommaOrEnd (c :: s))

/-- Passes over one value; `budget` exceeds the length of the text. -/
def skipValue (budget : Nat) (s : List Char) : Except Fault (List Char) :=
  skipOpen budget (2 * budget + 2) .value [] s

end Bindery.Json
