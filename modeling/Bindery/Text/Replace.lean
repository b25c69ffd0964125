/-!
# Replacing a pattern

`replaceAll` puts an image in the place of every occurrence of a pattern, from left to right;
occurrences do not overlap, and the image is not searched again.
-/

set_option autoImplicit false
set_option relaxedAutoImplicit false

namespace Bindery.Text

/-- Replaces the occurrences of a pattern after the first `inside` characters, which belong to an
occurrence already replaced. -/
def replaceFrom (pattern image : List Char) : Nat → List Char → List Char
  | _, [] => []
  | inside + 1, _ :: s => replaceFrom pattern image inside s
  | 0, c :: s =>
    if pattern.isPrefixOf (c :: s) then image ++ replaceFrom pattern image (pattern.length - 1) s
    else c :: replaceFrom pattern image 0 s

/-- Replaces every occurrence of a pattern that is not empty. -/
def replaceAll (pattern image s : List Char) : List Char := replaceFrom pattern image 0 s

end Bindery.Text
