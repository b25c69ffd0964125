import Bindery.CType
import Bindery.Fault
import Bindery.Interface
import Bindery.Profile

/-!
# Bindings of functions

A C function gets two declarations in the bindings: the raw one, with the types as they are, and a
public wrapper around it. The wrapper takes and returns `string` where C has `char *`, and spreads a
variadic parameter into the raw call. A `Binding` holds both.
-/

set_option autoImplicit false
set_option relaxedAutoImplicit false

namespace Bindery

namespace CType

/-- The text of the type of a variadic parameter. -/
def variadicMark : List Char := ['.', '.', '.']

/-- Whether a type of the bindings is variadic. -/
def isVariadic (target : String) : Bool := variadicMark.isPrefixOf target.toList

/-- The type of a variadic parameter of a function; without a function, none is known. -/
def resolveVariadic (variadics : List (String × String)) (function : Option String) :
    Except Fault String :=
  let name := function.getD ""
  match variadics.lookup name with
  | some target => .ok target
  | none => .error (.unresolvedVariadic name)

/-- The parts of the text of a C type, or the fault that it is none. -/
def ofText (text : String) : Except Fault CType :=
  (parse text).mapError fun flaw => .malformedType text flaw.message

/-- What the text of a C type becomes in the bindings. The function matters to a variadic parameter
only. -/
def mapText (variadics : List (String × String)) (text : String) (function : Option String) :
    Except Fault String :=
  if Text.trim text.toList = variadicMark then resolveVariadic variadics function
  else (ofText text).map target

end CType

namespace Binding

/-- How a parameter crosses from the wrapper into the raw call. -/
inductive Passing
  | direct
  /-- A `string`, of which the raw call takes the bytes. -/
  | text
  /-- A variadic list that is spread. -/
  | spread
  deriving DecidableEq

/-- How the value of the raw call reaches the caller of the wrapper. -/
inductive Returning
  | nothing
  | direct
  /-- Bytes up to a NUL, as a `string`. -/
  | text
  deriving DecidableEq

structure Param where
  name : String
  rawType : String
  passing : Passing
  deriving DecidableEq

/-- The raw type of a `char *`. -/
def rawText : String := "&u8"

/-- The type that stands for `char *` in a wrapper. -/
def publicText : String := "string"

/-- How a parameter of a raw type is passed. -/
def Passing.ofRaw (rawType : String) : Passing :=
  if rawType = rawText then .text
  else if CType.isVariadic rawType then .spread
  else .direct

/-- How a value of a raw type is returned. -/
def Returning.ofRaw (rawType : String) : Returning :=
  if rawType = "" then .nothing
  else if rawType = rawText then .text
  else .direct

def Param.publicType (param : Param) : String :=
  match param.passing with
  | .text => publicText
  | .direct | .spread => param.rawType

/-- The argument of the raw call. -/
def Param.argument (param : Param) : String :=
  match param.passing with
  | .direct => param.name
  | .text => param.name ++ ".str"
  | .spread => "..." ++ param.name

end Binding

structure Binding where
  /-- The name of the C function. -/
  symbol : String
  /-- The name of the wrapper. -/
  name : String
  params : List Binding.Param
  /-- The return type of the raw declaration, empty where there is none. -/
  rawReturn : String
  returning : Binding.Returning
  description : String
  deriving DecidableEq

namespace Binding

/-- The binding of one parameter of the function that the bindings call `function`. -/
def Param.ofParam (variadics : List (String × String)) (function : String)
    (param : Interface.Param) : Except Fault Param := do
  let rawType ← CType.mapText variadics param.type (some function)
  return ⟨Identifier.snakeCase param.name, rawType, .ofRaw rawType⟩

/-- The binding of a function; its return type is looked at before its parameters. -/
def ofFunction (variadics : List (String × String)) (function : Interface.Function) :
    Except Fault Binding := do
  let name := Identifier.snakeCase function.name
  let rawReturn ← CType.mapText variadics function.returnType none
  let params ← function.params.mapM (Param.ofParam variadics name)
  return ⟨function.name, name, params, rawReturn, .ofRaw rawReturn, function.description⟩

/-- The return type of the wrapper, empty where there is none. -/
def publicReturn (binding : Binding) : String :=
  match binding.returning with
  | .text => publicText
  | .nothing | .direct => binding.rawReturn

/-- The call of the raw function inside the wrapper. -/
def rawCall (binding : Binding) : String :=
  "C." ++ binding.symbol ++ "(" ++ ", ".intercalate (binding.params.map Param.argument) ++ ")"

end Binding

end Bindery
