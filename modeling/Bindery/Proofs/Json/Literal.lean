import Bindery.Json.Basic
import Bindery.Json.Reader
import Bindery.Proofs.Text.Integer

/-!
# Literals that are written and read

A text is read back from its literal, whatever characters it has (`text_writeText`): each character
is read back from what is written for it (`textBody_writeChar`). An integer of 64 bits is read back
from its decimal digits, both limits included (`integer_toString`), where no digit, point or
exponent comes behind them; so it is where the text that follows `Ends` a value.
-/

set_option autoImplicit false
set_option relaxedAutoImplicit false

namespace Bindery.Json

/-- A text that can follow a value of a list or of an object: it is empty, or starts with a comma or
a closing bracket. -/
def Ends (s : List Char) : Prop := ∀ c ∈ s.head?, c = ',' ∨ c = ']' ∨ c = '\x7d'

theorem skipSpaces_cons {c : Char} (hc : isSpace c = false) (s : List Char) :
    skipSpaces (c :: s) = c :: s := by
  rw [skipSpaces, List.dropWhile_cons_of_neg (by simp [hc])]

/-! ### Texts -/

theorem hexValue?_digitChar : ∀ d < 16, hexValue? (Nat.digitChar d) = some d := by decide

/-- The four digits of a control are read as its number. -/
theorem hexQuad?_hexPair {n : Nat} (hn : n < 0x20) (rest : List Char) :
    hexQuad? ('0' :: '0' :: hexPair n ++ rest) = some (n, rest) := by
  have hhigh := hexValue?_digitChar (n / 16) (by omega)
  have hlow := hexValue?_digitChar (n % 16) (by omega)
  have hzero : hexValue? '0' = some 0 := by decide
  simp only [hexPair, List.cons_append, List.nil_append, hexQuad?, hzero, hhigh, hlow]
  simp only [Option.bind_eq_bind, Option.bind_some, Option.pure_def, Option.some.injEq,
    Prod.mk.injEq, and_true]
  omega

theorem unicodeEscape_hexPair {c : Char} (hc : c.toNat < 0x20) (rest : List Char) :
    unicodeEscape ('0' :: '0' :: hexPair c.toNat ++ rest) = .ok (c, rest) := by
  have hlow : isLowSurrogate c.toNat = false := by
    simp only [isLowSurrogate, Bool.and_eq_false_iff, decide_eq_false_iff_not]
    omega
  have hhigh : isHighSurrogate c.toNat = false := by
    simp only [isHighSurrogate, Bool.and_eq_false_iff, decide_eq_false_iff_not]
    omega
  unfold unicodeEscape hexEscape
  rw [hexQuad?_hexPair hc]
  simp only [bind, Except.bind, hlow, hhigh, Char.ofNat_toNat]
  rfl

/-- A character is written behind a backslash, as what an escape is read from, or as itself. -/
theorem writeChar_cases (c : Char) :
    (∃ escaped, writeChar c = '\\' :: escaped ∧
      ∀ rest, escape (escaped ++ rest) = .ok (c, rest)) ∨
    (writeChar c = [c] ∧ c ≠ '"' ∧ c ≠ '\\' ∧ ¬c.toNat < 0x20) := by
  by_cases hshort : c ∈ ['"', '\\', '\x08', '\x0c', '\n', '\r', '\t']
  · simp only [List.mem_cons, List.not_mem_nil, or_false] at hshort
    rcases hshort with rfl | rfl | rfl | rfl | rfl | rfl | rfl <;>
      exact .inl ⟨_, rfl, fun _ ↦ rfl⟩
  · simp only [List.mem_cons, List.not_mem_nil, or_false, not_or] at hshort
    by_cases hcontrol : c.toNat < 0x20
    · refine .inl ⟨'u' :: '0' :: '0' :: hexPair c.toNat, ?_, fun rest ↦ ?_⟩
      · simp only [writeChar, hshort, hcontrol, if_true, if_false]
        rfl
      · rw [List.cons_append, escape, if_pos rfl]
        exact unicodeEscape_hexPair hcontrol rest
    · refine .inr ⟨?_, hshort.1, hshort.2.1, hcontrol⟩
      simp only [writeChar, hshort, hcontrol, if_false]

/-- What is written for a character is read as the character. -/
theorem textBody_writeChar (fuel : Nat) (done : List Char) (c : Char) (rest : List Char) :
    textBody (fuel + 1) done (writeChar c ++ rest) = textBody fuel (c :: done) rest := by
  rcases writeChar_cases c with ⟨escaped, hwrite, hescape⟩ | ⟨hwrite, hquote, hbackslash, hcontrol⟩
  · rw [hwrite, List.cons_append, textBody, if_neg (by decide), if_pos rfl, hescape]
  · rw [hwrite, List.singleton_append, textBody, if_neg hquote, if_neg hbackslash,
      if_neg hcontrol]

theorem length_writeChar_pos (c : Char) : 0 < (writeChar c).length := by
  rcases writeChar_cases c with ⟨escaped, hwrite, -⟩ | ⟨hwrite, -⟩ <;> simp [hwrite]

/-- The characters of a text are read back up to the closing quote. -/
theorem textBody_flatMap_writeChar {fuel : Nat} (done s rest : List Char)
    (hfuel : (s.flatMap writeChar).length < fuel) :
    textBody fuel done (s.flatMap writeChar ++ '"' :: rest) = .ok (done.reverse ++ s, rest) := by
  induction s generalizing fuel done with
  | nil =>
    obtain ⟨fuel, rfl⟩ := Nat.exists_eq_add_of_lt hfuel
    simp [textBody]
  | cons c s ih =>
    have hpos := length_writeChar_pos c
    rw [List.flatMap_cons, List.length_append] at hfuel
    obtain ⟨fuel, rfl⟩ := Nat.exists_eq_add_of_lt (Nat.zero_lt_of_lt hfuel)
    rw [Nat.zero_add] at hfuel ⊢
    rw [List.flatMap_cons, List.append_assoc, textBody_writeChar, ih _ (by omega)]
    simp

theorem writeText_append (value : String) (rest : List Char) :
    writeText value ++ rest = '"' :: (value.toList.flatMap writeChar ++ '"' :: rest) := by
  simp [writeText]

/-- The characters of a text are read back behind the opening quote of its literal. -/
theorem textBody_writeText {budget : Nat} (value : String) (rest : List Char)
    (hbudget : (writeText value).length < budget) :
    textBody budget [] (value.toList.flatMap writeChar ++ '"' :: rest) =
      .ok (value.toList, rest) := by
  rw [textBody_flatMap_writeChar]
  · rfl
  · simp only [writeText, List.length_append, List.length_cons] at hbudget
    omega

/-! ### Integers -/

theorem isSpace_of_isDigit {c : Char} (hc : c.isDigit = true) : isSpace c = false := by
  rw [← Bool.not_eq_true]
  intro hspace
  simp only [isSpace, Bool.or_eq_true, decide_eq_true_eq] at hspace
  rcases hspace with ((rfl | rfl) | rfl) | rfl <;> exact absurd hc (by decide)

theorem exists_toDigits_eq_cons (n : Nat) :
    ∃ d digits, Nat.toDigits 10 n = d :: digits ∧ d.isDigit = true := by
  obtain ⟨d, digits, hdigits⟩ := List.exists_cons_of_ne_nil (Nat.toDigits_ne_nil (n := n))
  have hmem : d ∈ Nat.toDigits 10 n := hdigits ▸ List.mem_cons_self
  exact ⟨d, digits, hdigits, Nat.isDigit_of_mem_toDigits (by decide) (by decide) hmem⟩

/-- The digits of a positive number do not start with a zero. -/
theorem head?_toDigits {n : Nat} (hn : 0 < n) :
    ∃ d digits, Nat.toDigits 10 n = d :: digits ∧ d ≠ '0' := by
  induction n using Nat.strongRecOn with
  | ind n ih =>
    rcases Nat.lt_or_ge n 10 with hsmall | hlarge
    · refine ⟨Nat.digitChar n, [], Nat.toDigits_of_lt_base hsmall, ?_⟩
      have hdigits : ∀ d < 10, 0 < d → Nat.digitChar d ≠ '0' := by decide
      exact hdigits n hsmall hn
    · obtain ⟨d, digits, hdigits, hd⟩ := ih (n / 10) (by omega) (by omega)
      rw [Nat.toDigits_of_base_le (by decide) hlarge, hdigits]
      exact ⟨d, digits ++ _, rfl, hd⟩

theorem le_ofDigitChars (digits : List Char) (significand : Nat) :
    significand ≤ Nat.ofDigitChars 10 digits significand := by
  induction digits generalizing significand with
  | nil => exact Nat.le_refl _
  | cons c digits ih =>
    rw [Nat.ofDigitChars_cons]
    exact Nat.le_trans (by omega) (ih _)

/-- Digits are absorbed into their number while it fits 64 bits. -/
theorem absorb_eq {digits : List Char} {significand : Nat}
    (hfits : Nat.ofDigitChars 10 digits significand < 0x10000000000000000) :
    absorb significand digits = (Nat.ofDigitChars 10 digits significand, 0) := by
  induction digits generalizing significand with
  | nil => rfl
  | cons c digits ih =>
    have hlonger : significand * 10 + digitValue c = 10 * significand + (c.toNat - '0'.toNat) := by
      rw [digitValue, Nat.mul_comm]
      rfl
    rw [Nat.ofDigitChars_cons] at hfits ⊢
    rw [absorb, hlonger, if_pos (Nat.lt_of_le_of_lt (le_ofDigitChars _ _) hfits), ih hfits]

/-- No digit is left over exactly if the number fits 64 bits. -/
theorem absorb_snd_eq_zero_iff {digits : List Char} {significand : Nat}
    (hfits : significand < 0x10000000000000000) :
    (absorb significand digits).2 = 0 ↔
      Nat.ofDigitChars 10 digits significand < 0x10000000000000000 := by
  refine ⟨fun hcount ↦ ?_, fun h ↦ congrArg Prod.snd (absorb_eq h)⟩
  induction digits generalizing significand with
  | nil => exact hfits
  | cons c digits ih =>
    rw [absorb] at hcount
    split_ifs at hcount with hlonger
    rw [digitValue, Nat.mul_comm] at hlonger hcount
    exact ih hlonger hcount

/-- The digits at the start of a text are those in front of the first other character. -/
theorem takeWhile_isDigit_append {digits rest : List Char}
    (hdigits : ∀ c ∈ digits, c.isDigit = true) (hrest : ∀ c ∈ rest.head?, c.isDigit = false) :
    (digits ++ rest).takeWhile Char.isDigit = digits ∧
      (digits ++ rest).dropWhile Char.isDigit = rest := by
  rw [List.takeWhile_append_of_pos hdigits, List.dropWhile_append_of_pos hdigits]
  cases rest with
  | nil => simp
  | cons c rest =>
    have hc := hrest c rfl
    simp [hc]

section Rest

variable {rest : List Char} (hrest : Ends rest)

include hrest

theorem scanWhole_toDigits (n : Nat) (atEnd : Reason) :
    Literal.scanWhole atEnd (Nat.toDigits 10 n ++ rest) = .ok (Nat.toDigits 10 n, rest) := by
  have hall : ∀ c ∈ Nat.toDigits 10 n, c.isDigit = true := fun c hc ↦
    Nat.isDigit_of_mem_toDigits (by decide) (by decide) hc
  rcases Nat.eq_zero_or_pos n with rfl | hn
  · have hzero : Nat.toDigits 10 0 = ['0'] := rfl
    rw [hzero]
    cases rest with
    | nil => rfl
    | cons c rest =>
      have hc : c.isDigit = false := by
        rcases hrest c rfl with rfl | rfl | rfl <;> decide
      simp [Literal.scanWhole, hc]
  · obtain ⟨d, digits, hdigits, hd⟩ := head?_toDigits hn
    rw [hdigits] at hall ⊢
    obtain ⟨hfirst, hothers⟩ := List.forall_mem_cons.mp hall
    have hend : ∀ c ∈ rest.head?, c.isDigit = false := fun c hc ↦ by
      rcases hrest c hc with rfl | rfl | rfl <;> decide
    obtain ⟨htake, hdrop⟩ := takeWhile_isDigit_append hothers hend
    rw [List.cons_append, Literal.scanWhole.eq_def]
    simp only [hd, hfirst, htake, hdrop, if_false, if_true]

theorem scan_toDigits (n : Nat) (atEnd : Reason) :
    Literal.scan atEnd (Nat.toDigits 10 n ++ rest) =
        .ok (⟨false, Nat.toDigits 10 n, none, none⟩, rest) ∧
      Literal.scan atEnd ('-' :: Nat.toDigits 10 n ++ rest) =
        .ok (⟨true, Nat.toDigits 10 n, none, none⟩, rest) := by
  have hwhole := scanWhole_toDigits hrest n atEnd
  have hfraction : Literal.scanFraction atEnd rest = .ok (none, rest) := by
    cases rest with
    | nil => rfl
    | cons c rest => rcases hrest c rfl with rfl | rfl | rfl <;> rfl
  have hexponent : Literal.scanExponent atEnd rest = .ok (none, rest) := by
    cases rest with
    | nil => rfl
    | cons c rest => rcases hrest c rfl with rfl | rfl | rfl <;> rfl
  constructor
  · -- The first digit is no minus, so all of the text is that of the whole digits.
    obtain ⟨d, digits, hdigits, hd⟩ := exists_toDigits_eq_cons n
    have hminus : d ≠ '-' := by
      rintro rfl
      exact absurd hd (by decide)
    rw [hdigits] at hwhole ⊢
    rw [Literal.scan.eq_def]
    split
    rename_i negative s hsign
    split at hsign
    · rename_i after hs
      exact absurd (List.cons.inj hs).1 hminus
    · obtain ⟨rfl, rfl⟩ := Prod.mk.inj hsign
      simp only [hwhole, bind, Except.bind, hfraction, hexponent]
      rfl
  · rw [Literal.scan.eq_def]
    simp only [List.cons_append, hwhole, bind, Except.bind, hfraction, hexponent]
    rfl

/-- Digits are read as their number, if it fits 64 bits. -/
theorem number_toDigits {n : Nat} (hn : n < 0x10000000000000000) :
    number (Nat.toDigits 10 n ++ rest) = .ok (.natural n, rest) := by
  have habsorb : absorb 0 (Nat.toDigits 10 n) = (n, 0) := by
    rw [absorb_eq] <;> rw [Nat.ofDigitChars_ten_toDigits]
    exact hn
  rw [number, (scan_toDigits hrest n .endOfValue).1]
  simp [bind, Except.bind, Literal.number, habsorb]
  rfl

/-- Digits after a minus are read as their negative number, down to the limit of 64 bits. -/
theorem number_minus_toDigits {n : Nat} (hpos : 0 < n) (hn : n ≤ 0x8000000000000000) :
    number ('-' :: Nat.toDigits 10 n ++ rest) = .ok (.negative n, rest) := by
  have habsorb : absorb 0 (Nat.toDigits 10 n) = (n, 0) := by
    rw [absorb_eq] <;> rw [Nat.ofDigitChars_ten_toDigits]
    omega
  rw [number, (scan_toDigits hrest n .endOfValue).2]
  simp [bind, Except.bind, Literal.number, habsorb, hpos, hn]
  rfl

/-- An integer of 64 bits is read back from its decimal digits. -/
theorem integer_toString (budget : Nat) (value : Int64) :
    Reader.integer budget ((toString value.toInt).toList ++ rest) = .ok (value, rest) := by
  have hupper := value.toInt_lt
  have hlower := value.le_toInt
  have hback : ∀ z : Int, z = value.toInt → Int64.ofInt z = value := fun z hz ↦
    hz ▸ Int64.ofInt_toInt value
  rw [Int.toString_eq_repr, Int.repr_eq_if]
  split_ifs with hsign
  · rw [Nat.toList_repr]
    obtain ⟨d, digits, hdigits, hd⟩ := exists_toDigits_eq_cons value.toInt.toNat
    have hnumber := number_toDigits hrest (n := value.toInt.toNat) (by omega)
    rw [hdigits, List.cons_append] at hnumber ⊢
    rw [Reader.integer, skipSpaces_cons (isSpace_of_isDigit hd)]
    simp only [hd, or_true, if_true, hnumber]
    rw [Number.toInt64, if_pos (by omega), hback _ (by omega)]
  · rw [String.toList_append, Nat.toList_repr]
    have hnumber := number_minus_toDigits hrest (n := (-value.toInt).toNat) (by omega) (by omega)
    rw [List.cons_append] at hnumber
    rw [show "-".toList = ['-'] from rfl, List.singleton_append, List.cons_append, Reader.integer,
      skipSpaces_cons (by decide)]
    simp only [true_or, if_true, hnumber]
    rw [Number.toInt64, hback _ (by omega)]

end Rest

/-- A text is read back from its literal. -/
theorem text_writeText {budget : Nat} (value : String) (rest : List Char)
    (hbudget : (writeText value).length < budget) :
    Reader.text budget (writeText value ++ rest) = .ok (value, rest) := by
  have hbody := textBody_writeText value rest hbudget
  rw [writeText_append, Reader.text, skipSpaces_cons (by decide)]
  simp only [if_true, hbody, Except.map, String.ofList_toList]

end Bindery.Json
