import Bindery.Proofs.Json.Literal
import Mathlib.Data.List.Basic

/-!
# JSON documents as trees

A `Tree` is a JSON value with all that its notation leaves open, the escapes of its texts and the
form of its numbers, but without blanks. Its `tokens` are laid out in a document with any blanks
between them (`Spells`). Whether the characters of a literal make a text (`decode?`) is not a
matter of notation: any four digits may follow `\u`, but they may name half of a character.
-/

set_option autoImplicit false
set_option relaxedAutoImplicit false

namespace Bindery.Json

/-! ### Literals -/

/-- A part of a string literal: a character as it is, an escape of one letter, or the four digits of
a code unit. -/
inductive Piece
  | plain (c : Char) (h : c ≠ '"' ∧ c ≠ '\\' ∧ ¬c.toNat < 0x20)
  | short (c : Char) (h : (shortEscape? c).isSome)
  | unit (a b c d : Char) (h : ∀ digit ∈ [a, b, c, d], (hexValue? digit).isSome)

def Piece.chars : Piece → List Char
  | .plain c _ => [c]
  | .short c _ => ['\\', c]
  | .unit a b c d _ => ['\\', 'u', a, b, c, d]

/-- The number that four hexadecimal digits write. -/
def quad (a b c d : Char) : Nat :=
  let value (digit : Char) := (hexValue? digit).getD 0
  ((value a * 16 + value b) * 16 + value c) * 16 + value d

/-- The character of two code units. -/
def joined (high low : Nat) : Char :=
  Char.ofNat ((high - 0xd800) * 0x400 + (low - 0xdc00) + 0x10000)

/-- The characters that the parts of a literal write. A code unit that is half of a character needs
the other half right behind it. -/
def decode? : List Piece → Option (List Char)
  | [] => some []
  | .plain c _ :: pieces => (decode? pieces).map (c :: ·)
  | .short c h :: pieces => (decode? pieces).map ((shortEscape? c).get h :: ·)
  | .unit a b c d _ :: pieces =>
    if isLowSurrogate (quad a b c d) then none
    else if isHighSurrogate (quad a b c d) then
      match pieces with
      | .unit e f g k _ :: pieces =>
        if isLowSurrogate (quad e f g k) then
          (decode? pieces).map (joined (quad a b c d) (quad e f g k) :: ·)
        else none
      | _ => none
    else (decode? pieces).map (Char.ofNat (quad a b c d) :: ·)

def IsDigits (s : List Char) : Prop := s ≠ [] ∧ ∀ c ∈ s, c.isDigit = true

/-- The parts of a number literal. An exponent has its letter, its sign and its digits. -/
structure Numeral where
  negative : Bool
  whole : List Char
  fraction : Option (List Char)
  exponent : Option (Char × List Char × List Char)
  whole_digits : IsDigits whole ∧ (whole.head? = some '0' → whole = ['0'])
  fraction_digits : ∀ digits ∈ fraction, IsDigits digits
  exponent_digits : ∀ letter sign digits, exponent = some (letter, sign, digits) →
    (letter = 'e' ∨ letter = 'E') ∧ (sign = [] ∨ sign = ['+'] ∨ sign = ['-']) ∧ IsDigits digits

namespace Numeral

def fractionChars : Option (List Char) → List Char
  | none => []
  | some digits => '.' :: digits

def exponentChars : Option (Char × List Char × List Char) → List Char
  | none => []
  | some (letter, sign, digits) => letter :: (sign ++ digits)

def chars (numeral : Numeral) : List Char :=
  (if numeral.negative then ['-'] else []) ++
    (numeral.whole ++ (fractionChars numeral.fraction ++ exponentChars numeral.exponent))

/-- What the reader of numbers takes from a numeral. -/
def literal (numeral : Numeral) : Literal :=
  ⟨numeral.negative, numeral.whole, numeral.fraction,
    numeral.exponent.map fun (_, sign, digits) ↦ (sign = ['-'], digits)⟩

end Numeral

/-- The literal of a text whose characters may all stand as they are. -/
def plainText (s : String) : List Piece :=
  s.toList.filterMap fun c ↦
    if h : c ≠ '"' ∧ c ≠ '\\' ∧ ¬c.toNat < 0x20 then some (.plain c h) else none

/-! ### Trees -/

inductive Tree
  | null
  | boolean (value : Bool)
  | number (numeral : Numeral)
  | text (pieces : List Piece)
  | list (items : List Tree)
  | object (members : List (List Piece × Tree))

def textToken (pieces : List Piece) : List Char := '"' :: (pieces.flatMap Piece.chars ++ ['"'])

mutual

/-- The parts of a tree that may have blanks in front of them. -/
def Tree.tokens : Tree → List (List Char)
  | .null => [['n', 'u', 'l', 'l']]
  | .boolean true => [['t', 'r', 'u', 'e']]
  | .boolean false => [['f', 'a', 'l', 's', 'e']]
  | .number numeral => [numeral.chars]
  | .text pieces => [textToken pieces]
  | .list items => ['['] :: itemTokens true items
  | .object members => ['\x7b'] :: memberTokens true members

/-- The items of a list, the first one of all or not, and the closing bracket. -/
def itemTokens : Bool → List Tree → List (List Char)
  | _, [] => [[']']]
  | first, item :: items =>
    (if first then [] else [[',']]) ++ (item.tokens ++ itemTokens false items)

/-- The members of an object, the first one of all or not, and the closing brace. -/
def memberTokens : Bool → List (List Piece × Tree) → List (List Char)
  | _, [] => [['\x7d']]
  | first, (key, value) :: members =>
    (if first then [] else [[',']]) ++
      (textToken key :: [':'] :: (value.tokens ++ memberTokens false members))

end

/-! ### Layouts -/

/-- A text starts with some tokens, with blanks in front of them, and goes on with another. -/
def Spaced : List (List Char) → List Char → List Char → Prop
  | [], s, rest => s = rest
  | token :: tokens, s, rest =>
    ∃ blanks after, (∀ c ∈ blanks, isSpace c = true) ∧ s = blanks ++ (token ++ after) ∧
      Spaced tokens after rest

/-- A document consists of the tokens of a tree and blanks. -/
def Tree.Spells (tree : Tree) (document : List Char) : Prop :=
  ∃ rest, Spaced tree.tokens document rest ∧ ∀ c ∈ rest, isSpace c = true

theorem spaced_append {first second : List (List Char)} {s rest : List Char} :
    Spaced (first ++ second) s rest ↔
      ∃ middle, Spaced first s middle ∧ Spaced second middle rest := by
  induction first generalizing s with
  | nil => simp [Spaced]
  | cons token first ih =>
    simp only [List.cons_append, Spaced, ih]
    constructor
    · rintro ⟨blanks, after, hblanks, hs, middle, hfirst, hsecond⟩
      exact ⟨middle, ⟨blanks, after, hblanks, hs, hfirst⟩, hsecond⟩
    · rintro ⟨middle, ⟨blanks, after, hblanks, hs, hfirst⟩, hsecond⟩
      exact ⟨blanks, after, hblanks, hs, middle, hfirst, hsecond⟩

/-- The tokens take up at least their own length. -/
theorem Spaced.length_le {tokens : List (List Char)} {s rest : List Char}
    (h : Spaced tokens s rest) : tokens.flatten.length + rest.length ≤ s.length := by
  induction tokens generalizing s with
  | nil => simp [show s = rest from h]
  | cons token tokens ih =>
    obtain ⟨blanks, after, -, rfl, hafter⟩ := h
    have hlength := ih hafter
    simp only [List.flatten_cons, List.length_append]
    omega

/-- Behind blanks stands the first token. -/
theorem Spaced.skipSpaces_eq {c : Char} {token : List Char} {tokens : List (List Char)}
    {s rest : List Char} (h : Spaced ((c :: token) :: tokens) s rest) (hc : isSpace c = false) :
    ∃ after, skipSpaces s = c :: (token ++ after) ∧ Spaced tokens after rest ∧
      token.length + after.length < s.length := by
  obtain ⟨blanks, after, hblanks, rfl, hafter⟩ := h
  refine ⟨after, ?_, hafter, ?_⟩
  · rw [skipSpaces, List.dropWhile_append_of_pos hblanks, List.cons_append,
      List.dropWhile_cons_of_neg (by simp [hc])]
  · simp only [List.length_append, List.length_cons]
    omega

theorem spaced_cons {token after : List Char} {tokens : List (List Char)} {rest : List Char}
    (h : Spaced tokens after rest) : Spaced (token :: tokens) (token ++ after) rest :=
  ⟨[], after, by simp, rfl, h⟩

/-- The characters of a tree with the same blanks in front of every token. -/
def Tree.layout (gap : List Char) (tree : Tree) : List Char := tree.tokens.flatMap (gap ++ ·)

theorem Tree.spells_layout {gap : List Char} (hgap : ∀ c ∈ gap, isSpace c = true) (tree : Tree) :
    tree.Spells (tree.layout gap) := by
  refine ⟨[], ?_, by simp⟩
  rw [layout]
  generalize tree.tokens = tokens
  induction tokens with
  | nil => rfl
  | cons token tokens ih =>
    exact ⟨gap, tokens.flatMap (gap ++ ·), hgap, List.append_assoc gap token _, ih⟩

/-- The characters that start a number. -/
def StartsNumber (c : Char) : Prop := c = '-' ∨ c.isDigit = true

theorem StartsNumber.isSpace_eq {c : Char} (h : StartsNumber c) : isSpace c = false := by
  rcases h with rfl | hc
  · decide
  · exact isSpace_of_isDigit hc

theorem StartsNumber.ne {c d : Char} (h : StartsNumber c) (hminus : d ≠ '-')
    (hdigit : d.isDigit = false) : c ≠ d := by
  rintro rfl
  rcases h with hc | hc
  · exact hminus hc
  · rw [hdigit] at hc
    exact Bool.noConfusion hc

/-- The first character of a tree tells what it is. -/
def Tree.Starts (c : Char) : Tree → Prop
  | .null => c = 'n'
  | .boolean true => c = 't'
  | .boolean false => c = 'f'
  | .number _ => StartsNumber c
  | .text _ => c = '"'
  | .list _ => c = '['
  | .object _ => c = '\x7b'

theorem Numeral.exists_chars (numeral : Numeral) :
    ∃ c token, numeral.chars = c :: token ∧ StartsNumber c := by
  obtain ⟨⟨hne, hdigits⟩, -⟩ := numeral.whole_digits
  obtain ⟨d, digits, hwhole⟩ := List.exists_cons_of_ne_nil hne
  rw [chars, hwhole]
  split_ifs
  · exact ⟨_, _, rfl, .inl rfl⟩
  · exact ⟨_, _, rfl, .inr (hdigits d (by simp [hwhole]))⟩

theorem Tree.exists_tokens (tree : Tree) :
    ∃ c token tokens, tree.tokens = (c :: token) :: tokens ∧ tree.Starts c := by
  cases tree with
  | null => exact ⟨_, _, _, by rw [tokens], rfl⟩
  | boolean value => cases value <;> exact ⟨_, _, _, by rw [tokens], rfl⟩
  | number numeral =>
    obtain ⟨c, token, hchars, hc⟩ := numeral.exists_chars
    exact ⟨c, token, [], by rw [tokens, hchars], hc⟩
  | text pieces => exact ⟨_, _, _, by rw [tokens, textToken], rfl⟩
  | list items => exact ⟨_, _, _, by rw [tokens], rfl⟩
  | object members => exact ⟨_, _, _, by rw [tokens], rfl⟩

/-- No tree starts with a blank or with the end of a list. -/
theorem Tree.Starts.ne {c : Char} {tree : Tree} (h : tree.Starts c) :
    isSpace c = false ∧ c ≠ ']' := by
  cases tree with
  | null => exact (show c = 'n' from h) ▸ by decide
  | boolean value =>
    cases value with
    | false => exact (show c = 'f' from h) ▸ by decide
    | true => exact (show c = 't' from h) ▸ by decide
  | number numeral =>
    have hnumber : StartsNumber c := h
    exact ⟨hnumber.isSpace_eq, hnumber.ne (by decide) (by decide)⟩
  | text pieces => exact (show c = '"' from h) ▸ by decide
  | list items => exact (show c = '[' from h) ▸ by decide
  | object members => exact (show c = '\x7b' from h) ▸ by decide

/-- Behind blanks stands the first character of a tree. -/
theorem Spaced.exists_start {tree : Tree} {s rest : List Char} (h : Spaced tree.tokens s rest) :
    ∃ c after, skipSpaces s = c :: after ∧ tree.Starts c := by
  obtain ⟨c, token, tokens, htokens, hstarts⟩ := tree.exists_tokens
  rw [htokens] at h
  obtain ⟨after, hskip, -⟩ := h.skipSpaces_eq hstarts.ne.1
  exact ⟨c, _, hskip, hstarts⟩

end Bindery.Json
