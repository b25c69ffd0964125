import Bindery.Text.Lowercase.Table
import Bindery.Text.Lowercase.Cased

/-!
# Lower case

`lowercase` is full lower-casing: every character is replaced by its lower case, `İ` by two
characters, and a capital sigma by the final form `ς` exactly when it ends a word. A sigma ends a
word when, case-ignorable characters aside, a cased character stands before it and none after it.
-/

set_option autoImplicit false
set_option relaxedAutoImplicit false

namespace Bindery.Text

/-- The simple lower case of a character. -/
def lowerChar (c : Char) : Char :=
  match lowerRuns.find? fun run =>
      run.1 ≤ c.toNat && c.toNat ≤ run.2.1 && (c.toNat - run.1) % run.2.2.1 == 0 with
  | some run => Char.ofNat (run.2.2.2 + (c.toNat - run.1))
  | none => c

/-- The full lower case of a character, wherever it stands. -/
def lowerFull (c : Char) : List Char :=
  if c = 'İ' then ['i', '\u0307'] else [lowerChar c]

/-- Whether the first character that is not case-ignorable is a cased one. -/
def meetsCased (s : List Char) : Bool :=
  match s.dropWhile isCaseIgnorable with
  | [] => false
  | c :: _ => isCased c

/-- The lower case of a capital sigma between `before`, read backwards, and `after`. -/
def lowerSigma (before after : List Char) : Char :=
  if meetsCased before && !meetsCased after then 'ς' else 'σ'

/-- The lower case of a text that follows `before`, read backwards. -/
def lowercaseAfter (before : List Char) : List Char → List Char
  | [] => []
  | c :: s =>
    (if c = 'Σ' then [lowerSigma before s] else lowerFull c) ++ lowercaseAfter (c :: before) s

def lowercase (s : List Char) : List Char := lowercaseAfter [] s

end Bindery.Text
