/-!
# TOML values

What a TOML document says once its notation is forgotten. Reals and points in time keep the text
they were written as.
-/

set_option autoImplicit false
set_option relaxedAutoImplicit false

namespace Bindery.Toml

inductive Value
  | text (value : String)
  | integer (value : Int)
  | real (written : List Char)
  | boolean (value : Bool)
  | moment (written : List Char)
  | list (items : List Value)
  | table (entries : List (String × Value))

end Bindery.Toml
