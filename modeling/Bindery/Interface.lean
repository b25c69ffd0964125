import Bindery.Json.Basic
import Bindery.Json.Reader

/-!
# Interface descriptions

An `Interface` is what a C header declares, as a header parser describes it in JSON: structures,
aliases, callbacks, enumerations and functions, each in the order of the header.
`Interface.read` takes a description from a document and `Interface.toJson` gives it back. Every
item needs all its keys; only the five lists and the parameters of a callback or a function may be
left out, and are empty then.
-/

set_option autoImplicit false
set_option relaxedAutoImplicit false

namespace Bindery

namespace Interface

/-- A field of a structure, with the text of its C type. -/
structure Field where
  name : String
  type : String
  description : String
  deriving DecidableEq

structure Struct where
  name : String
  description : String
  fields : List Field
  deriving DecidableEq

/-- A second name for a C type. -/
structure Alias where
  name : String
  type : String
  description : String
  deriving DecidableEq

/-- A parameter of a callback or a function, with the text of its C type. -/
structure Param where
  name : String
  type : String
  deriving DecidableEq

/-- A named type of pointers to functions. -/
structure Callback where
  name : String
  returnType : String
  params : List Param
  description : String
  deriving DecidableEq

structure Enumerator where
  name : String
  value : Int64
  description : String
  deriving DecidableEq

structure Enum where
  name : String
  description : String
  values : List Enumerator
  deriving DecidableEq

structure Function where
  name : String
  returnType : String
  params : List Param
  description : String
  deriving DecidableEq

end Interface

structure Interface where
  structs : List Interface.Struct
  aliases : List Interface.Alias
  callbacks : List Interface.Callback
  enums : List Interface.Enum
  functions : List Interface.Function
  deriving DecidableEq

namespace Interface

open Json

/-- The number of items of all kinds. -/
def size (interface : Interface) : Nat :=
  interface.structs.length + interface.aliases.length + interface.callbacks.length +
    interface.enums.length + interface.functions.length

/-! ### Reading -/

def Field.reader : Reader Field :=
  .record "struct Field"
    (.field "name" .text none <| .field "type" .text none <| .field "description" .text none .done)
    fun (name, type, description, ()) => ⟨name, type, description⟩

def Struct.reader : Reader Struct :=
  .record "struct Struct"
    (.field "name" .text none <| .field "description" .text none <|
      .field "fields" (.list Field.reader) none .done)
    fun (name, description, fields, ()) => ⟨name, description, fields⟩

def Alias.reader : Reader Alias :=
  .record "struct Alias"
    (.field "name" .text none <| .field "type" .text none <| .field "description" .text none .done)
    fun (name, type, description, ()) => ⟨name, type, description⟩

def Param.reader : Reader Param :=
  .record "struct Param" (.field "name" .text none <| .field "type" .text none .done)
    fun (name, type, ()) => ⟨name, type⟩

def Callback.reader : Reader Callback :=
  .record "struct Callback"
    (.field "name" .text none <| .field "returnType" .text none <|
      .field "params" (.list Param.reader) (some []) <| .field "description" .text none .done)
    fun (name, returnType, params, description, ()) => ⟨name, returnType, params, description⟩

def Enumerator.reader : Reader Enumerator :=
  .record "struct EnumValue"
    (.field "name" .text none <| .field "value" .integer none <|
      .field "description" .text none .done)
    fun (name, value, description, ()) => ⟨name, value, description⟩

def Enum.reader : Reader Enum :=
  .record "struct Enum"
    (.field "name" .text none <| .field "description" .text none <|
      .field "values" (.list Enumerator.reader) none .done)
    fun (name, description, values, ()) => ⟨name, description, values⟩

def Function.reader : Reader Function :=
  .record "struct Function"
    (.field "name" .text none <| .field "returnType" .text none <|
      .field "params" (.list Param.reader) (some []) <| .field "description" .text none .done)
    fun (name, returnType, params, description, ()) => ⟨name, returnType, params, description⟩

def reader : Reader Interface :=
  .record "struct ApiDescription"
    (.field "structs" (.list Struct.reader) (some []) <|
      .field "aliases" (.list Alias.reader) (some []) <|
      .field "callbacks" (.list Callback.reader) (some []) <|
      .field "enums" (.list Enum.reader) (some []) <|
      .field "functions" (.list Function.reader) (some []) .done)
    fun (structs, aliases, callbacks, enums, functions, ()) =>
      ⟨structs, aliases, callbacks, enums, functions⟩

/-- Reads the text of a description. -/
def read (document : String) : Except Problem Interface := reader.document document.toList

/-! ### Writing -/

def Field.toJson (field : Field) : Json :=
  .object [("name", .text field.name), ("type", .text field.type),
    ("description", .text field.description)]

def Struct.toJson (struct : Struct) : Json :=
  .object [("name", .text struct.name), ("description", .text struct.description),
    ("fields", .list (struct.fields.map Field.toJson))]

def Alias.toJson (definition : Alias) : Json :=
  .object [("name", .text definition.name), ("type", .text definition.type),
    ("description", .text definition.description)]

def Param.toJson (param : Param) : Json :=
  .object [("name", .text param.name), ("type", .text param.type)]

def Callback.toJson (callback : Callback) : Json :=
  .object [("name", .text callback.name), ("returnType", .text callback.returnType),
    ("params", .list (callback.params.map Param.toJson)),
    ("description", .text callback.description)]

def Enumerator.toJson (enumerator : Enumerator) : Json :=
  .object [("name", .text enumerator.name), ("value", .integer enumerator.value.toInt),
    ("description", .text enumerator.description)]

def Enum.toJson (enum : Enum) : Json :=
  .object [("name", .text enum.name), ("description", .text enum.description),
    ("values", .list (enum.values.map Enumerator.toJson))]

def Function.toJson (function : Function) : Json :=
  .object [("name", .text function.name), ("returnType", .text function.returnType),
    ("params", .list (function.params.map Param.toJson)),
    ("description", .text function.description)]

/-- A description as a value, with every key present. -/
def toJson (interface : Interface) : Json :=
  .object [("structs", .list (interface.structs.map Struct.toJson)),
    ("aliases", .list (interface.aliases.map Alias.toJson)),
    ("callbacks", .list (interface.callbacks.map Callback.toJson)),
    ("enums", .list (interface.enums.map Enum.toJson)),
    ("functions", .list (interface.functions.map Function.toJson))]

/-- The text of a description. -/
def write (interface : Interface) : String := String.ofList interface.toJson.write

end Interface

end Bindery
