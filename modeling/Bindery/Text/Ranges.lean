/-!
# Sets of characters given by ranges

A character property is stored as a list of closed intervals of code points, in increasing order,
and is decided by looking for an interval that holds the character.
-/

set_option autoImplicit false
set_option relaxedAutoImplicit false

namespace Bindery.Text

/-- Whether the code point of `c` lies in one of the closed intervals `ranges`. -/
def inRanges (ranges : List (Nat × Nat)) (c : Char) : Bool :=
  ranges.any fun range => range.1 ≤ c.toNat && c.toNat ≤ range.2

end Bindery.Text
