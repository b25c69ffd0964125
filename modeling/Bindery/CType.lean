import Bindery.Identifier
import Bindery.Text.Blank

/-!
# C types

The text of a C type is an optional `const`, the words of its base type, pointer marks and array
dimensions, in this order, with blanks between them. `CType.parse` splits such a text into its
parts. `CType.target` writes the type for the bindings: the dimensions, an `&` for each pointer and
the name of the base type; an untyped pointer has a name of its own.
-/

set_option autoImplicit false
set_option relaxedAutoImplicit false

namespace Bindery

structure CType where
  /-- The words of the base type with one space between them. -/
  base : String
  isConst : Bool
  pointers : Nat
  /-- The text of each dimension, in the order written. -/
  dimensions : List String
  deriving DecidableEq

namespace CType

open Text

/-- Why a text is not a C type. -/
inductive Flaw
  | empty
  | afterDimensions (rest : List Char)
  | unclosedBracket
  | emptyDimension
  | invalidDimension (size : List Char)
  | unbalancedBracket
  | afterPointers (character : Char)
  | missingBase
  | invalidWord (word : List Char)
  deriving DecidableEq

def Flaw.message : Flaw → String
  | .empty => "empty type"
  | .afterDimensions rest => "unexpected `" ++ String.ofList rest ++ "` after array dimensions"
  | .unclosedBracket => "unclosed `[`"
  | .emptyDimension => "empty array dimension"
  | .invalidDimension size => "invalid array dimension `" ++ String.ofList size ++ "`"
  | .unbalancedBracket => "unbalanced `]`"
  | .afterPointers character =>
    "unexpected `" ++ String.singleton character ++ "` after pointer markers"
  | .missingBase => "missing base type"
  | .invalidWord word => "`" ++ String.ofList word ++ "` is not an identifier"

/-- The text of a dimension, if it is a word. -/
def checkDimension (size : List Char) : Except Flaw String :=
  if size.isEmpty then .error .emptyDimension
  else if Identifier.isWord size then .ok (String.ofList size)
  else .error (.invalidDimension size)

/-- The dimensions at the end of a type; they follow each other directly or after blanks. -/
def parseDimensions : Nat → List Char → Except Flaw (List String)
  | 0, _ => .error .unclosedBracket
  | _ + 1, [] => .ok []
  | fuel + 1, c :: s =>
    if c = '[' then
      match s.dropWhile (· ≠ ']') with
      | [] => .error .unclosedBracket
      | _ :: rest => do
        let size ← checkDimension (trim (s.takeWhile (· ≠ ']')))
        return size :: (← parseDimensions fuel (trimStart rest))
    else .error (.afterDimensions (c :: s))

/-- The number of pointer marks in a text of marks and blanks. -/
def parsePointers (marks : List Char) : Except Flaw Nat :=
  match marks.find? fun c => c ≠ '*' && !isBlank c with
  | some c => .error (.afterPointers c)
  | none => .ok (marks.count '*')

/-- Takes a leading `const` off a trimmed text; a blank or the end of the text must follow it. -/
def splitConst (s : List Char) : Bool × List Char :=
  match s with
  | 'c' :: 'o' :: 'n' :: 's' :: 't' :: rest =>
    if rest.isEmpty || (rest.head?.any isBlank) then (true, trim rest) else (false, s)
  | _ => (false, s)

/-- The words of a base type. -/
def parseBase (s : List Char) : Except Flaw String :=
  if s.isEmpty then .error .missingBase
  else match (words s).find? fun word => !Identifier.isWord word with
    | some word => .error (.invalidWord word)
    | none => .ok (String.ofList (joinWith [' '] (words s)))

/-- The parts of a trimmed text that is not empty. -/
def parseTrimmed (s : List Char) : Except Flaw CType := do
  let head := s.takeWhile (· ≠ '[')
  let dimensions ← parseDimensions (s.length + 1) (s.dropWhile (· ≠ '['))
  if head.contains ']' then throw .unbalancedBracket
  let pointers ← parsePointers (head.dropWhile (· ≠ '*'))
  let (isConst, base) := splitConst (trim (head.takeWhile (· ≠ '*')))
  return ⟨← parseBase base, isConst, pointers, dimensions⟩

/-- The parts of the text of a C type. -/
def parse (text : String) : Except Flaw CType :=
  let s := trim text.toList
  if s.isEmpty then .error .empty else parseTrimmed s

/-- Whether this is the pointer to values of any type. -/
def isVoidPointer (type : CType) : Bool :=
  type.base = "void" && type.pointers = 1 && type.dimensions.isEmpty

/-- The base types that have another name in the bindings. -/
def baseNames : List (String × String) :=
  [("void", ""), ("char", "u8"), ("float", "f32"), ("double", "f64"), ("unsigned int", "u32"),
   ("unsigned short", "u16"), ("unsigned char", "u8"), ("long", "i64"), ("size_t", "C.size_t"),
   ("va_list", "C.va_list"), ("rAudioBuffer", "AudioBuffer"),
   ("rAudioProcessor", "AudioProcessor"), ("ma_context", "C.ma_context"),
   ("ma_device", "C.ma_device"), ("ma_mutex", "C.ma_mutex"), ("float3", "Float3"),
   ("float16", "Float16")]

/-- The name of a base type in the bindings. -/
def baseName (base : String) : String := (baseNames.lookup base).getD base

/-- The dimensions of a type, each in brackets. -/
def bracketed (dimensions : List String) : String :=
  String.join (dimensions.map fun size => "[" ++ size ++ "]")

/-- The type as the bindings write it. -/
def target (type : CType) : String :=
  if type.isVoidPointer then "voidptr"
  else bracketed type.dimensions ++ String.ofList (List.replicate type.pointers '&') ++
    baseName type.base

end CType

end Bindery
