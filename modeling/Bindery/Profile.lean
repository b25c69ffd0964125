/-!
# Module profiles

A `Profile` says how the bindings of one module differ from the plain rules: which structures and
aliases another module already provides, which C types get another name, what follows the module
line, and what a variadic parameter of a function becomes.
-/

set_option autoImplicit false
set_option relaxedAutoImplicit false

namespace Bindery

structure Profile where
  name : String
  ignoredStructs : List String
  ignoredAliases : List String
  /-- Pairs of a C type and its name in the bindings. -/
  renames : List (String × String)
  /-- The text right after the module line. -/
  preamble : Option String
  /-- Pairs of a function, by its name in the bindings, and the type of its variadic parameter. -/
  variadics : List (String × String)
  deriving DecidableEq

namespace Profile

/-- The variadic functions of the library. -/
def libraryVariadics : List (String × String) :=
  [("trace_log", "...TraceLogLevel"), ("text_format", "...any")]

def raylib : Profile where
  name := "raylib"
  ignoredStructs := []
  ignoredAliases := []
  renames := []
  preamble := none
  variadics := libraryVariadics

def raymath : Profile where
  name := "raymath"
  ignoredStructs := ["Vector2", "Vector3", "Vector4", "Matrix"]
  ignoredAliases := ["Quaternion"]
  renames := [("float3", "Float3"), ("float16", "Float16")]
  preamble := some "import raylib \x7b Vector2, Vector3, Vector4, Matrix \x7d\n"
  variadics := libraryVariadics

def raygui : Profile where
  name := "raygui"
  ignoredStructs :=
    ["Vector2", "Vector3", "Color", "Rectangle", "Texture2D", "Image", "GlyphInfo", "Font"]
  ignoredAliases := []
  renames := []
  preamble := some "import raylib \x7b Color, Font, Rectangle, Vector2, Vector3 \x7d\n"
  variadics := libraryVariadics

/-- The profiles that are built in, in the order they are listed. -/
def builtin : List Profile := [raylib, raymath, raygui]

/-- The built-in profile of a name. -/
def find? (name : String) : Option Profile := builtin.find? fun profile => profile.name = name

def ignoresStruct (profile : Profile) (name : String) : Bool := profile.ignoredStructs.contains name

def ignoresAlias (profile : Profile) (name : String) : Bool := profile.ignoredAliases.contains name

/-- The name of a C type in the bindings of the module. -/
def rename (profile : Profile) (name : String) : String := (profile.renames.lookup name).getD name

end Profile

end Bindery
