import Bindery.Text.Quoted

/-!
# What can be wrong with a JSON document

Reading stops at the first `Fault`: a reason, and how many bytes of the document lie after the
place it is reported at. `Fault.locate` turns that into a line and a column, counted in bytes.
-/

set_option autoImplicit false
set_option relaxedAutoImplicit false

namespace Bindery.Json

/-- What stands where a value of another kind was wanted. -/
inductive Found
  | null
  | boolean (value : Bool)
  | integer (value : Int)
  | real (written : String)
  | text (value : String)
  | sequence
  | map
  deriving DecidableEq

def Found.message : Found → String
  | .null => "null"
  | .boolean true => "boolean `true`"
  | .boolean false => "boolean `false`"
  | .integer value => "integer `" ++ toString value ++ "`"
  | .real written => "floating point `" ++ written ++ "`"
  | .text value => "string " ++ Text.quoted value
  | .sequence => "sequence"
  | .map => "map"

inductive Reason
  | endOfList
  | endOfObject
  | endOfText
  | endOfValue
  | expectedColon
  | expectedListCommaOrEnd
  | expectedObjectCommaOrEnd
  | expectedWord
  | expectedValue
  | invalidEscape
  | invalidNumber
  | numberOutOfRange
  | controlCharacter
  | keyIsNotText
  | loneSurrogate
  | unfinishedSurrogatePair
  | trailingComma
  | trailingCharacters
  | wrongKind (found : Found) (expected : String)
  | wrongValue (found : Found) (expected : String)
  | wrongLength (length : Nat) (title : String) (fields : Nat)
  | missingField (key : String)
  | duplicateField (key : String)
  deriving DecidableEq

def Reason.message : Reason → String
  | .endOfList => "EOF while parsing a list"
  | .endOfObject => "EOF while parsing an object"
  | .endOfText => "EOF while parsing a string"
  | .endOfValue => "EOF while parsing a value"
  | .expectedColon => "expected `:`"
  | .expectedListCommaOrEnd => "expected `,` or `]`"
  | .expectedObjectCommaOrEnd => "expected `,` or `\x7d`"
  | .expectedWord => "expected ident"
  | .expectedValue => "expected value"
  | .invalidEscape => "invalid escape"
  | .invalidNumber => "invalid number"
  | .numberOutOfRange => "number out of range"
  | .controlCharacter => "control character (\\u0000-\\u001F) found while parsing a string"
  | .keyIsNotText => "key must be a string"
  | .loneSurrogate => "lone leading surrogate in hex escape"
  | .unfinishedSurrogatePair => "unexpected end of hex escape"
  | .trailingComma => "trailing comma"
  | .trailingCharacters => "trailing characters"
  | .wrongKind found expected => "invalid type: " ++ found.message ++ ", expected " ++ expected
  | .wrongValue found expected => "invalid value: " ++ found.message ++ ", expected " ++ expected
  | .wrongLength length title fields =>
    "invalid length " ++ toString length ++ ", expected " ++ title ++ " with " ++ toString fields ++
      (if fields = 1 then " element" else " elements")
  | .missingField key => "missing field `" ++ key ++ "`"
  | .duplicateField key => "duplicate field `" ++ key ++ "`"

/-- The length of a text in bytes. -/
def byteLength (s : List Char) : Nat := s.foldl (fun n c => n + c.utf8Size) 0

/-- A reason and the count of bytes after the place it is reported at. -/
structure Fault where
  reason : Reason
  left : Nat
  deriving DecidableEq

/-- A fault reported in front of the unread text. -/
def Fault.before (reason : Reason) (rest : List Char) : Fault := ⟨reason, byteLength rest⟩

/-- A fault reported behind the first byte of the unread text, if there is one. -/
def Fault.behind (reason : Reason) (rest : List Char) : Fault := ⟨reason, byteLength rest - 1⟩

/-- A fault with its place: the line, counted from one, and the bytes before it on that line. -/
structure Problem where
  reason : Reason
  line : Nat
  column : Nat
  deriving DecidableEq

def Problem.message (p : Problem) : String :=
  p.reason.message ++ " at line " ++ toString p.line ++ " column " ++ toString p.column

/-- The line and the column `offset` bytes into a text, from a place on `line` at `column` on. -/
def placeFrom (line column : Nat) : List Char → Nat → Nat × Nat
  | [], _ => (line, column)
  | c :: s, offset =>
    if offset < c.utf8Size then (line, column + offset)
    else if c = '\n' then placeFrom (line + 1) 0 s (offset - c.utf8Size)
    else placeFrom line (column + c.utf8Size) s (offset - c.utf8Size)

/-- The place of a fault in the document it was found in. -/
def Fault.locate (fault : Fault) (document : List Char) : Problem :=
  let (line, column) := placeFrom 1 0 document (byteLength document - fault.left)
  ⟨fault.reason, line, column⟩

end Bindery.Json
