import Bindery.Text.Ranges

/-!
# Blank characters, trimmed text and words

A blank is a character with the property `White_Space`. `trim` drops blanks at both ends of a text,
and `words` are its longest runs without a blank, from left to right.
-/

set_option autoImplicit false
set_option relaxedAutoImplicit false

namespace Bindery.Text

/-- The property `White_Space`. -/
def blankRanges : List (Nat × Nat) :=
  [(0x9, 0xd), (0x20, 0x20), (0x85, 0x85), (0xa0, 0xa0), (0x1680, 0x1680), (0x2000, 0x200a),
   (0x2028, 0x2029), (0x202f, 0x202f), (0x205f, 0x205f), (0x3000, 0x3000)]

def isBlank (c : Char) : Bool := inRanges blankRanges c

def trimStart (s : List Char) : List Char := s.dropWhile isBlank

def trimEnd (s : List Char) : List Char := (s.reverse.dropWhile isBlank).reverse

def trim (s : List Char) : List Char := trimEnd (trimStart s)

/-- The pieces of a text between the characters that satisfy `p`; there is one piece more than
there are such characters. -/
def splitBy (p : Char → Bool) : List Char → List (List Char)
  | [] => [[]]
  | c :: s =>
    if p c then [] :: splitBy p s
    else match splitBy p s with
      | [] => [[c]]
      | piece :: pieces => (c :: piece) :: pieces

/-- The longest runs of characters that are not blank. -/
def words (s : List Char) : List (List Char) := (splitBy isBlank s).filter fun w => !w.isEmpty

/-- `middle` between any two neighbours of a list of texts. -/
def joinWith (middle : List Char) : List (List Char) → List Char
  | [] => []
  | [s] => s
  | s :: t :: rest => s ++ middle ++ joinWith middle (t :: rest)

end Bindery.Text
