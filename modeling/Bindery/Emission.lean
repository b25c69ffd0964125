import Bindery.Binding

/-!
# The source of a module

The bindings of an interface are one source file: the line that names the module, the preamble of
its profile, and one block of lines for each item, with a blank line in front of every block. Items
come in the order structures, aliases, callbacks, enumerations, functions (`Interface.items`). An
item that the profile ignores makes no block and is not looked at; the first item that has none for
another reason is the fault of the whole module (`emit`).
-/

set_option autoImplicit false
set_option relaxedAutoImplicit false

namespace Bindery

/-- One declaration of an interface. -/
inductive Item
  | struct (struct : Interface.Struct)
  | typeAlias (definition : Interface.Alias)
  | callback (callback : Interface.Callback)
  | enum (enum : Interface.Enum)
  | function (function : Interface.Function)
  deriving DecidableEq

/-- All items in the order in which a module declares them. -/
def Interface.items (interface : Interface) : List Item :=
  interface.structs.map .struct ++ interface.aliases.map .typeAlias ++
    interface.callbacks.map .callback ++ interface.enums.map .enum ++
    interface.functions.map .function

/-! ### Lines -/

/-- A line of a module: code, a comment after an indentation, or code with a comment behind it. -/
inductive Line
  | code (text : String)
  | comment (indent text : String)
  | annotated (code comment : String)
  deriving DecidableEq

def Line.text : Line → String
  | .code c => c
  | .comment indent remark => indent ++ "// " ++ remark
  | .annotated c remark => c ++ " // " ++ remark

/-- The comment that a description makes; an empty one makes none. -/
def Line.remark (indent description : String) : List Line :=
  if description = "" then [] else [.comment indent description]

/-- Code with a description behind it, if there is one. -/
def Line.described (code description : String) : Line :=
  if description = "" then .code code else .annotated code description

/-- Lines as text, each with its end. -/
def Line.render (lines : List Line) : String :=
  String.join (lines.map fun line => line.text ++ "\n")

namespace Emission

/-- Texts with a comma between them. -/
def commaList (texts : List String) : String := ", ".intercalate texts

/-- A declaration with its type behind it, if it has one. -/
def withType (declaration type : String) : String :=
  if type = "" then declaration else declaration ++ " " ++ type

/-! ### Blocks -/

def fieldLines (profile : Profile) (field : Interface.Field) : Except Fault (List Line) := do
  let type ← CType.mapText profile.variadics field.type none
  return Line.remark "\t" field.description ++
    [.code ("\t" ++ Identifier.snakeCase field.name ++ " " ++ type)]

def structLines (profile : Profile) (struct : Interface.Struct) : Except Fault (List Line) := do
  let fields ← struct.fields.mapM (fieldLines profile)
  return [.code ("pub type " ++ profile.rename struct.name ++ " = C." ++ struct.name)] ++
    Line.remark "" struct.description ++
    [.code ("pub struct C." ++ struct.name ++ " \x7b")] ++ fields.flatten ++ [.code "\x7d"]

/-- The C type that an alias names; it may have no pointers and no dimensions. -/
def aliasTarget (definition : Interface.Alias) : Except Fault CType := do
  let type ← CType.ofText definition.type
  if type.pointers > 0 || !type.dimensions.isEmpty then
    throw (.malformedType definition.type
      ("alias `" ++ definition.name ++ "` must name a plain type"))
  return type

def aliasLines (profile : Profile) (definition : Interface.Alias) : Except Fault (List Line) := do
  let type ← aliasTarget definition
  return Line.remark "" definition.description ++
    [.code ("pub type " ++ profile.rename definition.name ++ " = C." ++ type.base)]

def callbackParam (profile : Profile) (callback : String) (param : Interface.Param) :
    Except Fault String := do
  let type ← CType.mapText profile.variadics param.type (some (Identifier.snakeCase callback))
  return Identifier.snakeCase param.name ++ " " ++ type

/-- The lines of a callback; its parameters are looked at before its return type. -/
def callbackLines (profile : Profile) (callback : Interface.Callback) :
    Except Fault (List Line) := do
  let params ← callback.params.mapM (callbackParam profile callback.name)
  let returnType ← CType.mapText profile.variadics callback.returnType none
  return Line.remark "" callback.description ++
    [.code (withType ("pub type " ++ callback.name ++ " = fn (" ++ commaList params ++ ")")
      returnType)]

def enumeratorLine (enumerator : Interface.Enumerator) : Line :=
  .described
    ("\t" ++ String.ofList (Text.lowercase enumerator.name.toList) ++ " = " ++
      toString enumerator.value.toInt)
    enumerator.description

def enumLines (enum : Interface.Enum) : List Line :=
  Line.remark "" enum.description ++ [.code ("pub enum " ++ enum.name ++ " \x7b")] ++
    enum.values.map enumeratorLine ++ [.code "\x7d"]

/-- The raw declaration of a binding. -/
def rawDeclaration (binding : Binding) : String :=
  withType ("fn C." ++ binding.symbol ++ "(" ++ commaList (binding.params.map (·.rawType)) ++ ")")
    binding.rawReturn

/-- The first line of the wrapper of a binding, without its brace. -/
def wrapperHead (binding : Binding) : String :=
  withType
    ("pub fn " ++ binding.name ++ "(" ++
      commaList (binding.params.map fun param => param.name ++ " " ++ param.publicType) ++ ")")
    binding.publicReturn

def wrapperBody (binding : Binding) : List Line :=
  match binding.returning with
  | .nothing => [.code ("\t" ++ binding.rawCall)]
  | .direct => [.code ("\treturn " ++ binding.rawCall)]
  | .text =>
    [.code "\tunsafe \x7b", .code ("\t\treturn " ++ binding.rawCall ++ ".vstring()"),
     .code "\t\x7d"]

def bindingLines (binding : Binding) : List Line :=
  [.code (rawDeclaration binding)] ++ Line.remark "" binding.description ++
    [.code "@[inline]", .code (wrapperHead binding ++ " \x7b")] ++ wrapperBody binding ++
    [.code "\x7d"]

end Emission

/-! ### Items -/

namespace Item

/-- Whether the profile leaves the item to another module. -/
def ignored (profile : Profile) : Item → Bool
  | .struct s => profile.ignoresStruct s.name
  | .typeAlias a => profile.ignoresAlias a.name
  | .callback _ | .enum _ | .function _ => false

/-- The block of an item. -/
def lines (profile : Profile) : Item → Except Fault (List Line)
  | .struct s => Emission.structLines profile s
  | .typeAlias a => Emission.aliasLines profile a
  | .callback c => Emission.callbackLines profile c
  | .enum e => .ok (Emission.enumLines e)
  | .function f => (Binding.ofFunction profile.variadics f).map Emission.bindingLines

/-- The text of the block of an item, `none` for an ignored one. -/
def block (profile : Profile) (item : Item) : Except Fault (Option String) :=
  if item.ignored profile then .ok none
  else (item.lines profile).map fun lines => some (Line.render lines)

end Item

/-- How many items of each kind a module declares, and how many it skips. -/
structure Summary where
  structs : Nat
  aliases : Nat
  callbacks : Nat
  enums : Nat
  functions : Nat
  skipped : Nat
  deriving DecidableEq

namespace Summary

def zero : Summary := ⟨0, 0, 0, 0, 0, 0⟩

def add (s t : Summary) : Summary :=
  ⟨s.structs + t.structs, s.aliases + t.aliases, s.callbacks + t.callbacks, s.enums + t.enums,
   s.functions + t.functions, s.skipped + t.skipped⟩

/-- The summary of one item that is declared. -/
def one : Item → Summary
  | .struct _ => { zero with structs := 1 }
  | .typeAlias _ => { zero with aliases := 1 }
  | .callback _ => { zero with callbacks := 1 }
  | .enum _ => { zero with enums := 1 }
  | .function _ => { zero with functions := 1 }

/-- The summary of one item under a profile. -/
def ofItem (profile : Profile) (item : Item) : Summary :=
  if item.ignored profile then { zero with skipped := 1 } else one item

/-- The sum of the summaries of some items. -/
def ofItems (profile : Profile) (items : List Item) : Summary :=
  items.foldr (fun item sum => add (ofItem profile item) sum) zero

end Summary

/-- The source of a module and what went into it. -/
structure Emission where
  source : String
  summary : Summary
  deriving DecidableEq

namespace Emission

/-- A text with an end of line, unless it has one. -/
def endLine (text : String) : String :=
  if text.toList.getLast? = some '\n' then text else text ++ "\n"

/-- The module line and the preamble. -/
def prologue (profile : Profile) (name : String) : String :=
  "module " ++ name ++ "\n" ++
    match profile.preamble with
    | some preamble => endLine preamble
    | none => ""

/-- The source made of a prologue and blocks. -/
def assemble (prologue : String) (blocks : List String) : String :=
  if blocks.isEmpty then prologue else prologue ++ "\n" ++ "\n".intercalate blocks

end Emission

/-- The bindings of an interface as a module of the given name. -/
def emit (profile : Profile) (name : String) (interface : Interface) : Except Fault Emission := do
  let blocks ← interface.items.mapM (Item.block profile)
  return ⟨Emission.assemble (Emission.prologue profile name) (blocks.filterMap id),
    .ofItems profile interface.items⟩

end Bindery
