import Mathlib.Tactic.SplitIfs

/-!
# Texts of integers

An integer is written with decimal digits behind an optional minus (`isDigit_of_mem_toString`), and
different integers are written differently (`toString_int_inj`). Digits without a zero in front are
those of their number (`toDigits_ofDigitChars`).
-/

set_option autoImplicit false
set_option relaxedAutoImplicit false

namespace Bindery.Text

theorem isDigit_of_mem_repr {n : Nat} {c : Char} (hc : c ∈ n.repr.toList) : c.isDigit = true := by
  rw [Nat.toList_repr] at hc
  exact Nat.isDigit_of_mem_toDigits (by decide) (by decide) hc

theorem repr_nat_inj {m n : Nat} (h : m.repr = n.repr) : m = n := by
  have hdigits : Nat.toDigits 10 m = Nat.toDigits 10 n := by
    rw [← Nat.toList_repr, ← Nat.toList_repr, h]
  rw [← Nat.ofDigitChars_ten_toDigits (n := m), hdigits, Nat.ofDigitChars_ten_toDigits]

/-- The number that a digit stands for. -/
theorem digitChar_of_isDigit {c : Char} (hc : c.isDigit = true) :
    c.toNat - '0'.toNat < 10 ∧ Nat.digitChar (c.toNat - '0'.toNat) = c := by
  have hcode : 48 ≤ c.toNat ∧ c.toNat ≤ 57 := Char.isDigit_iff_toNat.mp hc
  have hdigits : ∀ d : Fin 10, Nat.digitChar d = Char.ofNat (48 + d) := by decide
  have hlt : c.toNat - 48 < 10 := by omega
  refine ⟨hlt, ?_⟩
  have hdigit := hdigits ⟨c.toNat - 48, hlt⟩
  rwa [show 48 + (c.toNat - 48) = c.toNat by omega, Char.ofNat_toNat] at hdigit

/-- Digits behind a number are appended to its own. -/
theorem toDigits_ofDigitChars_append {n : Nat} (hn : 0 < n) {digits : List Char}
    (hdigits : ∀ c ∈ digits, c.isDigit = true) :
    Nat.toDigits 10 (Nat.ofDigitChars 10 digits n) = Nat.toDigits 10 n ++ digits := by
  induction digits generalizing n with
  | nil => exact (List.append_nil _).symm
  | cons c digits ih =>
    obtain ⟨hfirst, hothers⟩ := List.forall_mem_cons.mp hdigits
    obtain ⟨hlt, hdigit⟩ := digitChar_of_isDigit hfirst
    rw [Nat.ofDigitChars_cons, ih (by omega) hothers,
      ← Nat.toDigits_append_toDigits (by decide) hn hlt, Nat.toDigits_of_lt_base hlt, hdigit,
      List.append_assoc, List.singleton_append]

/-- Digits are those of their number, if there is no zero in front of others. -/
theorem toDigits_ofDigitChars {digits : List Char} (hne : digits ≠ [])
    (hdigits : ∀ c ∈ digits, c.isDigit = true) (hzero : digits.head? = some '0' → digits = ['0']) :
    Nat.toDigits 10 (Nat.ofDigitChars 10 digits 0) = digits := by
  obtain ⟨c, digits, rfl⟩ := List.exists_cons_of_ne_nil hne
  obtain ⟨hfirst, hothers⟩ := List.forall_mem_cons.mp hdigits
  obtain ⟨hlt, hdigit⟩ := digitChar_of_isDigit hfirst
  rcases Nat.eq_zero_or_pos (c.toNat - '0'.toNat) with hnone | hpos
  · rw [hnone] at hdigit
    rw [hzero (congrArg some hdigit.symm)]
    rfl
  · rw [Nat.ofDigitChars_cons, Nat.mul_zero, Nat.zero_add, toDigits_ofDigitChars_append hpos hothers,
      Nat.toDigits_of_lt_base hlt, hdigit, List.singleton_append]

/-- The text of an integer has digits and a minus only. -/
theorem isDigit_of_mem_toString {z : Int} {c : Char} (hc : c ∈ (toString z).toList) :
    c.isDigit = true ∨ c = '-' := by
  rw [Int.toString_eq_repr, Int.repr_eq_if] at hc
  split_ifs at hc
  · exact .inl (isDigit_of_mem_repr hc)
  · rw [String.toList_append, List.mem_append] at hc
    rcases hc with hc | hc
    · exact .inr (List.mem_singleton.mp hc)
    · exact .inl (isDigit_of_mem_repr hc)

theorem notMem_toString (z : Int) {c : Char} (hdigit : c.isDigit = false) (hminus : c ≠ '-') :
    c ∉ (toString z).toList := by
  intro hc
  rcases isDigit_of_mem_toString hc with h | h
  · exact absurd (h.symm.trans hdigit) (by decide)
  · exact hminus h

/-- Integers with one text are equal. -/
theorem toString_int_inj {y z : Int} (h : toString y = toString z) : y = z := by
  have hminus : ∀ m n : Nat, m.repr ≠ "-" ++ n.repr := by
    intro m n h
    have hmem : '-' ∈ m.repr.toList := by
      rw [h, String.toList_append]
      exact List.mem_append_left _ (List.mem_singleton.mpr rfl)
    exact absurd (isDigit_of_mem_repr hmem) (by decide)
  rw [Int.toString_eq_repr, Int.toString_eq_repr, Int.repr_eq_if, Int.repr_eq_if] at h
  split_ifs at h
  · have hnat := repr_nat_inj h
    omega
  · exact absurd h (hminus _ _)
  · exact absurd h.symm (hminus _ _)
  · rw [String.append_right_inj] at h
    have hnat := repr_nat_inj h
    omega

end Bindery.Text
