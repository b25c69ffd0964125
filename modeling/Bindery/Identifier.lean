import Bindery.Text.Lowercase
import Bindery.Text.Replace

/-!
# Identifiers in snake case

C headers join words by capitals (`GetWindowTitle`), the bindings by underscores
(`get_window_title`). `snakeCase` first turns each acronym of a fixed list into a segment of its own
(`joinAcronyms`), then puts an underscore in front of every capital but a leading one
(`separateCapitals`), and takes the lower case.
-/

set_option autoImplicit false
set_option relaxedAutoImplicit false

namespace Bindery.Identifier

/-- The acronyms that make one segment, in the order they are looked for. -/
def acronyms : List (List Char) :=
  [['U', 'T', 'F', '8'], ['F', 'P', 'S'], ['D', 'P', 'I'], ['2', 'D'], ['3', 'D'], ['U', 'R', 'L'],
   ['C', 'R', 'C', '3', '2'], ['M', 'D', '5'], ['S', 'H', 'A', '1'], ['P', 'O', 'T'], ['N', 'N'],
   ['C', 'W'], ['C', 'C', 'W'], ['N', 'P', 'a', 't', 'c', 'h'], ['H', 'S', 'V']]

/-- What an acronym is replaced by. -/
def segment (acronym : List Char) : List Char := '_' :: acronym.map Char.toLower

/-- Turns each acronym of a list into a segment, one after the other. -/
def joinAcronymsOf (table : List (List Char)) (name : List Char) : List Char :=
  table.foldl (fun s acronym => Text.replaceAll acronym (segment acronym) s) name

def joinAcronyms (name : List Char) : List Char := joinAcronymsOf acronyms name

/-- A character with the underscore that a capital takes. -/
def separated (c : Char) : List Char := if c.isUpper then ['_', c] else [c]

/-- An underscore in front of every capital from the second character on. -/
def separateCapitals : List Char → List Char
  | [] => []
  | c :: s => c :: s.flatMap separated

/-- The characters of a name in snake case. -/
def snake (name : List Char) : List Char := Text.lowercase (separateCapitals (joinAcronyms name))

/-- A name in snake case. -/
def snakeCase (name : String) : String := String.ofList (snake name.toList)

/-- Letters, digits and underscores of ASCII. -/
def isWordChar (c : Char) : Bool := c.isAlphanum || c = '_'

/-- Whether a text holds only letters, digits and underscores. -/
def isWord (s : List Char) : Bool := s.all isWordChar

end Bindery.Identifier
