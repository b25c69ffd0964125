import Bindery.Proofs.Json.Schema

/-!
# Integers in documents

A numeral without fraction and exponent denotes an integer (`Numeral.value`). It is read as this
integer if the integer fits 64 bits, and otherwise not at all; nor is a zero behind a minus read as
one (`Numeral.int64?_eq`). Of those that are read, each has the characters with which its integer is
written (`Numeral.toList_toString_value`).
-/

set_option autoImplicit false
set_option relaxedAutoImplicit false

namespace Bindery.Json.Numeral

open Text

/-- A numeral without fraction and exponent. -/
def IsInteger (numeral : Numeral) : Prop := numeral.fraction = none ∧ numeral.exponent = none

/-- The number of the digits. -/
def magnitude (numeral : Numeral) : Nat := Nat.ofDigitChars 10 numeral.whole 0

/-- The integer that a numeral without fraction and exponent denotes. -/
def value (numeral : Numeral) : Int :=
  if numeral.negative then -(numeral.magnitude : Int) else numeral.magnitude

/-- The integer fits 64 bits, and is not zero behind a minus. -/
def Fits (numeral : Numeral) : Prop :=
  numeral.chars ≠ ['-', '0'] ∧
    -0x8000000000000000 ≤ numeral.value ∧ numeral.value < 0x8000000000000000

instance : DecidablePred Fits := fun numeral ↦
  inferInstanceAs (Decidable (numeral.chars ≠ ['-', '0'] ∧
    -0x8000000000000000 ≤ numeral.value ∧ numeral.value < 0x8000000000000000))

/-- The numeral of a number, behind a minus or not. -/
def ofNat (negative : Bool) (n : Nat) : Numeral where
  negative := negative
  whole := Nat.toDigits 10 n
  fraction := none
  exponent := none
  whole_digits := by
    refine ⟨⟨Nat.toDigits_ne_nil, fun c hc ↦ ?_⟩, fun hzero ↦ ?_⟩
    · exact Nat.isDigit_of_mem_toDigits (by decide) (by decide) hc
    · rcases Nat.eq_zero_or_pos n with rfl | hpos
      · rfl
      · obtain ⟨d, digits, hdigits, hd⟩ := head?_toDigits hpos
        rw [hdigits] at hzero
        exact absurd (Option.some.inj hzero) hd
  fraction_digits := by simp
  exponent_digits := by simp

variable {numeral : Numeral}

theorem toDigits_magnitude (numeral : Numeral) :
    Nat.toDigits 10 numeral.magnitude = numeral.whole :=
  toDigits_ofDigitChars numeral.whole_digits.1.1 numeral.whole_digits.1.2 numeral.whole_digits.2

theorem IsInteger.chars_eq (h : numeral.IsInteger) :
    numeral.chars = (if numeral.negative then ['-'] else []) ++ numeral.whole := by
  rw [chars, h.1, h.2, fractionChars, exponentChars, List.append_nil, List.append_nil]

theorem IsInteger.chars_eq_minus_zero_iff (h : numeral.IsInteger) :
    numeral.chars = ['-', '0'] ↔ numeral.negative = true ∧ numeral.magnitude = 0 := by
  rw [h.chars_eq]
  cases hnegative : numeral.negative with
  | false =>
    refine iff_of_false (fun hchars ↦ ?_) (fun hboth ↦ Bool.false_ne_true hboth.1)
    have hwhole : numeral.whole = ['-', '0'] := hchars
    have hdigit := numeral.whole_digits.1.2 '-' (by simp [hwhole])
    exact absurd hdigit (by decide)
  | true =>
    rw [if_pos rfl, List.singleton_append, List.cons_inj_right, ← toDigits_magnitude]
    refine ⟨fun hdigits ↦ ⟨rfl, ?_⟩, fun hboth ↦ by rw [hboth.2]; rfl⟩
    rw [← Nat.ofDigitChars_ten_toDigits (n := numeral.magnitude), hdigits]
    rfl

/-- The integers that fit, by their digits. -/
theorem IsInteger.fits_iff (h : numeral.IsInteger) : numeral.Fits ↔
    if numeral.negative then 0 < numeral.magnitude ∧ numeral.magnitude ≤ 0x8000000000000000
    else numeral.magnitude < 0x8000000000000000 := by
  rw [Fits, value, Ne, h.chars_eq_minus_zero_iff]
  cases numeral.negative with
  | false =>
    simp only [Bool.false_eq_true, if_false, false_and, not_false_eq_true, true_and]
    omega
  | true =>
    simp only [if_true, true_and]
    omega

/-- The integer is written with the characters of the numeral. -/
theorem IsInteger.toList_toString_value (h : numeral.IsInteger)
    (hzero : numeral.chars ≠ ['-', '0']) : (toString numeral.value).toList = numeral.chars := by
  rw [Ne, h.chars_eq_minus_zero_iff] at hzero
  rw [h.chars_eq, ← toDigits_magnitude, value, Int.toString_eq_repr, Int.repr_eq_if]
  cases hnegative : numeral.negative with
  | false =>
    rw [if_neg Bool.false_ne_true, if_pos (Int.natCast_nonneg _), Int.toNat_natCast,
      Nat.toList_repr]
    rfl
  | true =>
    have hpos : numeral.magnitude ≠ 0 := fun hnone ↦ hzero ⟨hnegative, hnone⟩
    rw [if_pos rfl, if_neg (by omega), Int.neg_neg, Int.toNat_natCast, String.toList_append,
      Nat.toList_repr]
    rfl

/-- Digits that are more than 64 bits make a number of another kind, and so does a zero behind a
minus, or more than 64 bits with the sign. -/
theorem IsInteger.number_eq (h : numeral.IsInteger) : numeral.literal.number =
    if numeral.magnitude < 0x10000000000000000 then
      if ¬numeral.negative then .ok (.natural numeral.magnitude)
      else if 0 < numeral.magnitude ∧ numeral.magnitude ≤ 0x8000000000000000 then
        .ok (.negative numeral.magnitude)
      else .ok (.real (-(Float.ofNat numeral.magnitude)))
    else numeral.literal.real.map .real := by
  have hliteral : numeral.literal = ⟨numeral.negative, numeral.whole, none, none⟩ := by
    rw [literal, h.1, h.2]
    rfl
  have hcount : (absorb 0 numeral.whole).2 = 0 ↔ numeral.magnitude < 0x10000000000000000 :=
    absorb_snd_eq_zero_iff (by decide)
  rw [hliteral, Literal.number]
  by_cases hshort : numeral.magnitude < 0x10000000000000000
  · rw [if_pos ⟨rfl, rfl, hcount.mpr hshort⟩, if_pos hshort, absorb_eq hshort]
    rfl
  · rw [if_neg fun hnumber ↦ hshort (hcount.mp hnumber.2.2), if_neg hshort]

/-- A numeral of an integer is read as this integer if it fits, and as none otherwise. -/
theorem IsInteger.int64?_eq (h : numeral.IsInteger) :
    numeral.int64? = if numeral.Fits then some (Int64.ofInt numeral.value) else none := by
  rw [int64?, h.number_eq, if_congr h.fits_iff rfl rfl, value]
  by_cases hshort : numeral.magnitude < 0x10000000000000000
  · rw [if_pos hshort]
    cases numeral.negative with
    | false =>
      by_cases hfits : numeral.magnitude < 0x8000000000000000
      · simp [Number.toInt64, hfits, Except.toOption]
      · simp [Number.toInt64, hfits, Except.toOption]
    | true =>
      by_cases hfits : 0 < numeral.magnitude ∧ numeral.magnitude ≤ 0x8000000000000000
      · simp [Number.toInt64, hfits, Except.toOption]
      · simp [Number.toInt64, hfits, Except.toOption]
  · have hlarge : ¬(if numeral.negative then
        0 < numeral.magnitude ∧ numeral.magnitude ≤ 0x8000000000000000
        else numeral.magnitude < 0x8000000000000000) := by
      split_ifs <;> omega
    rw [if_neg hshort, if_neg hlarge]
    cases numeral.literal.real <;> rfl

end Bindery.Json.Numeral
