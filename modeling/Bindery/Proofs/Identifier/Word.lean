import Bindery.Identifier
import Bindery.Proofs.Text.Blank

/-!
# Words

Letters, digits and underscores of ASCII, of which identifiers and the words of C types are made.
None of them is a blank or a mark of punctuation. A word is an identifier unless it begins with a
digit (`Word.isIdentifier_iff`).
-/

set_option autoImplicit false
set_option relaxedAutoImplicit false

namespace Bindery.Identifier

/-- Letters, digits and underscores, at least one. -/
def Word (s : List Char) : Prop := s ≠ [] ∧ isWord s = true

/-- A letter or an underscore, and then letters, digits and underscores. -/
def IsIdentifier : List Char → Prop
  | [] => False
  | c :: rest => (c.isAlpha = true ∨ c = '_') ∧ isWord rest = true

instance : DecidablePred IsIdentifier
  | [] => inferInstanceAs (Decidable False)
  | c :: rest => inferInstanceAs (Decidable ((c.isAlpha = true ∨ c = '_') ∧ isWord rest = true))

theorem isUpper_iff {c : Char} : c.isUpper = true ↔ 65 ≤ c.toNat ∧ c.toNat ≤ 90 := by
  change decide (65 ≤ c.toNat ∧ c.toNat ≤ 90) = true ↔ _
  rw [decide_eq_true_eq]

theorem isLower_iff {c : Char} : c.isLower = true ↔ 97 ≤ c.toNat ∧ c.toNat ≤ 122 := by
  change (decide (97 ≤ c.toNat) && decide (c.toNat ≤ 122)) = true ↔ _
  rw [Bool.and_eq_true, decide_eq_true_eq, decide_eq_true_eq]

theorem isWordChar_iff {c : Char} : isWordChar c = true ↔
    (65 ≤ c.toNat ∧ c.toNat ≤ 90) ∨ (97 ≤ c.toNat ∧ c.toNat ≤ 122) ∨
      (48 ≤ c.toNat ∧ c.toNat ≤ 57) ∨ c = '_' := by
  change (((c.isUpper || c.isLower) || c.isDigit) || decide (c = '_')) = true ↔ _
  rw [Bool.or_eq_true, Bool.or_eq_true, Bool.or_eq_true, isUpper_iff, isLower_iff,
    Char.isDigit_iff_toNat, decide_eq_true_eq, or_assoc, or_assoc]
  exact Iff.rfl

theorem isWordChar_space : isWordChar ' ' = false := rfl

theorem isWordChar_parenthesis : isWordChar '(' = false := rfl

theorem toNat_of_isWordChar {c : Char} (hc : isWordChar c = true) :
    48 ≤ c.toNat ∧ c.toNat ≤ 122 := by
  rcases isWordChar_iff.mp hc with h | h | h | rfl
  · omega
  · omega
  · omega
  · decide

theorem toNat_lt_of_isWordChar {c : Char} (hc : isWordChar c = true) : c.toNat < 128 :=
  Nat.lt_of_le_of_lt (toNat_of_isWordChar hc).2 (by decide)

theorem isBlank_of_isWordChar {c : Char} (hc : isWordChar c = true) : Text.isBlank c = false := by
  have hcode := toNat_of_isWordChar hc
  simp only [Text.isBlank, Text.inRanges, Text.blankRanges, List.any_cons, List.any_nil,
    Bool.or_eq_false_iff, Bool.and_eq_false_iff, decide_eq_false_iff_not, and_true]
  omega

/-- A character of a word differs from one that is in no word. -/
theorem ne_of_isWordChar {c d : Char} (hc : isWordChar c = true) (hd : isWordChar d = false) :
    c ≠ d := by
  rintro rfl
  rw [hc] at hd
  exact nomatch hd

theorem Word.intro {s : List Char} (hne : s ≠ []) (hs : ∀ c ∈ s, isWordChar c = true) : Word s :=
  ⟨hne, List.all_eq_true.mpr hs⟩

theorem Word.isWordChar_of_mem {s : List Char} (hs : Word s) {c : Char} (hc : c ∈ s) :
    isWordChar c = true :=
  List.all_eq_true.mp hs.2 c hc

theorem IsIdentifier.word {s : List Char} (hs : IsIdentifier s) : Word s := by
  cases s with
  | nil => exact nomatch hs
  | cons c rest =>
    obtain ⟨hc, hrest⟩ := hs
    have hfirst : isWordChar c = true := by
      rcases hc with hc | rfl
      · change ((c.isAlpha || c.isDigit) || decide (c = '_')) = true
        rw [hc, Bool.true_or, Bool.true_or]
      · rfl
    refine .intro (List.cons_ne_nil c rest) fun d hd ↦ ?_
    rcases List.mem_cons.mp hd with rfl | hd
    · exact hfirst
    · exact List.all_eq_true.mp hrest d hd

/-- Whether a text begins with a digit. -/
def startsWithDigit (s : List Char) : Bool := s.head?.any Char.isDigit

theorem isAlpha_of_isDigit {c : Char} (hc : c.isDigit = true) : c.isAlpha = false := by
  have hcode : 48 ≤ c.toNat ∧ c.toNat ≤ 57 := Char.isDigit_iff_toNat.mp hc
  change (c.isUpper || c.isLower) = false
  rw [Bool.or_eq_false_iff, ← Bool.not_eq_true, ← Bool.not_eq_true, isUpper_iff, isLower_iff]
  omega

/-- The words that are no identifiers begin with a digit. -/
theorem Word.isIdentifier_iff {w : List Char} (hw : Word w) :
    IsIdentifier w ↔ startsWithDigit w = false := by
  obtain ⟨c, rest, rfl⟩ := List.exists_cons_of_ne_nil hw.1
  have hrest : isWord rest = true :=
    List.all_eq_true.mpr fun d hd ↦ hw.isWordChar_of_mem (List.mem_cons_of_mem c hd)
  have hfirst : (c.isAlpha || c.isDigit || decide (c = '_')) = true :=
    hw.isWordChar_of_mem List.mem_cons_self
  change (c.isAlpha = true ∨ c = '_') ∧ isWord rest = true ↔ c.isDigit = false
  cases hdigit : c.isDigit with
  | false =>
    rw [hdigit, Bool.or_false, Bool.or_eq_true, decide_eq_true_eq] at hfirst
    exact iff_of_true ⟨hfirst, hrest⟩ rfl
  | true =>
    refine iff_of_false ?_ (by decide)
    rintro ⟨halpha | rfl, -⟩
    · rw [isAlpha_of_isDigit hdigit] at halpha
      exact nomatch halpha
    · exact nomatch hdigit

theorem Word.solid {w : List Char} (hw : Word w) : Text.Solid w :=
  ⟨hw.1, fun _ hc ↦ isBlank_of_isWordChar (hw.isWordChar_of_mem hc)⟩

theorem Word.notMem {w : List Char} (hw : Word w) {c : Char} (hc : isWordChar c = false) : c ∉ w :=
  fun hmem ↦ ne_of_isWordChar (hw.isWordChar_of_mem hmem) hc rfl

end Bindery.Identifier
