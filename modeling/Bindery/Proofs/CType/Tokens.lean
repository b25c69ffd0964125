import Bindery.Proofs.CType.Grammar
import Bindery.Proofs.Text.Pieces

/-!
# The words and sizes of a type

C has identifiers for the words of a type and decimal numbers or identifiers for its dimensions
(`Named`). What is read from a text are the words written in front of its marks (`writtenWords`) and
the texts between its brackets (`writtenSizes`), and a text in which one of them is no word is
reported. But a word may begin with a digit, in which alone it differs from an identifier, and so a
type is `Named` exactly if no word of it begins with a digit and no size does but a decimal number
(`ofText_tokens`).
-/

set_option autoImplicit false
set_option relaxedAutoImplicit false

namespace Bindery.CType

open Text Identifier

/-- A number in decimal notation. -/
def IsDecimal (s : List Char) : Prop := s ≠ [] ∧ s.all Char.isDigit = true

instance : DecidablePred IsDecimal := fun _ ↦ inferInstanceAs (Decidable (_ ∧ _))

/-- What C has for the size of a dimension. -/
def IsSize (s : List Char) : Prop := IsDecimal s ∨ IsIdentifier s

instance : DecidablePred IsSize := fun _ ↦ inferInstanceAs (Decidable (_ ∨ _))

/-- The words of a type are identifiers, and its dimensions are decimal numbers or identifiers. -/
structure Named (type : CType) : Prop where
  base : ∀ w ∈ words type.base.toList, IsIdentifier w
  dimension : ∀ size ∈ type.dimensions, IsSize size.toList

/-- Some word begins with a digit, or some size does that is no decimal number. -/
def DigitLed (ws sizes : List (List Char)) : Prop :=
  (∃ w ∈ ws, startsWithDigit w = true) ∨
    ∃ size ∈ sizes, startsWithDigit size = true ∧ ¬ IsDecimal size

instance (ws sizes : List (List Char)) : Decidable (DigitLed ws sizes) :=
  inferInstanceAs (Decidable (_ ∨ _))

/-- The words in front of the marks of a type. -/
def writtenWords (text : List Char) : List (List Char) :=
  words (text.takeWhile fun c ↦ c ≠ '*' && c ≠ '[')

/-- What stands between the brackets of a type, trimmed: a closing bracket ends a size, and the
first opening bracket in front of it begins it. -/
def writtenSizes (text : List Char) : List (List Char) :=
  (text.splitOn ']').dropLast.map fun piece ↦ trim (piece.dropWhile (· ≠ '[')).tail

theorem isSize_iff {s : List Char} (hs : Word s) :
    IsSize s ↔ (startsWithDigit s = true → IsDecimal s) := by
  rw [IsSize, hs.isIdentifier_iff]
  cases hdigit : startsWithDigit s with
  | true => simp
  | false => simp

/-! ### What is written -/

theorem Suffix.exists_gap {pointers : Nat} {sizes : List (List Char)} {s : List Char}
    (hs : Suffix pointers sizes s) :
    ∃ gap rest, s = gap ++ rest ∧ Blanks gap ∧ ∀ c ∈ rest.head?, c = '*' ∨ c = '[' := by
  cases hs with
  | blanks hs => exact ⟨s, [], (List.append_nil s).symm, hs, fun c hc ↦ nomatch hc⟩
  | @mark _ _ gap s hgap _ =>
    exact ⟨gap, '*' :: s, rfl, hgap, fun c hc ↦ .inl (Option.some.inj hc).symm⟩
  | @size size gap before after s _ hgap _ _ _ _ =>
    exact ⟨gap, _, rfl, hgap, fun c hc ↦ .inr (Option.some.inj hc).symm⟩

theorem writtenWords_of_spells {text : List Char} {ws sizes : List (List Char)} {pointers : Nat}
    (h : Spells text ws pointers sizes) : writtenWords text = ws := by
  obtain ⟨before, body, rest, hbefore, hbody, hrest, rfl⟩ := h.exists_split
  obtain ⟨gap, marks, rfl, hgap, hmarks⟩ := hrest.exists_gap
  have hnone : ∀ c ∈ before ++ body ++ gap, (c ≠ '*' && c ≠ '[') = true := by
    have habsent : ∀ d, isWordChar d = false → isBlank d = false → d ∉ before ++ body ++ gap := by
      intro d hword hblank
      rw [List.mem_append, List.mem_append, not_or, not_or]
      exact ⟨⟨hbefore.notMem hblank, notMem_of_spaced hbody h.word_of_mem hword hblank⟩,
        hgap.notMem hblank⟩
    intro c hc
    rw [Bool.and_eq_true, decide_eq_true_eq, decide_eq_true_eq]
    exact ⟨fun hstar ↦ habsent '*' rfl rfl (hstar ▸ hc),
      fun hopen ↦ habsent '[' rfl rfl (hopen ▸ hc)⟩
  have hstop : ∀ c ∈ marks.head?, (c ≠ '*' && c ≠ '[') = false := by
    intro c hc
    rcases hmarks c hc with rfl | rfl
    · rfl
    · rfl
  rw [writtenWords, ← List.append_assoc, takeWhile_append_of_head? hnone hstop,
    words_append_right hgap, words_append_left hbefore,
    words_of_spaced hbody fun w hw ↦ (h.word_of_mem w hw).solid]

/-- In front of the sizes there may be any text without brackets. -/
theorem writtenSizes_append_suffix {pointers : Nat} {sizes : List (List Char)} {s front : List Char}
    (hs : Suffix pointers sizes s) (hopen : '[' ∉ front) (hclose : ']' ∉ front) :
    writtenSizes (front ++ s) = sizes := by
  induction hs generalizing front with
  | @blanks s hs =>
    have hnone : ']' ∉ front ++ s := by
      rw [List.mem_append, not_or]
      exact ⟨hclose, hs.notMem rfl⟩
    rw [writtenSizes, List.splitOn_eq_singleton hnone]
    rfl
  | @mark pointers sizes gap s hgap _ ih =>
    have hassoc : front ++ (gap ++ '*' :: s) = front ++ gap ++ ['*'] ++ s := by simp
    rw [hassoc]
    refine ih ?_ ?_
    · simpa using ⟨hopen, hgap.notMem rfl⟩
    · simpa using ⟨hclose, hgap.notMem rfl⟩
  | @size size gap before after s sizes hgap hbefore hsize hafter _ ih =>
    have hpiece : ']' ∉ front ++ gap ++ '[' :: (before ++ size ++ after) := by
      simpa using ⟨hclose, hgap.notMem rfl, hbefore.notMem rfl, hsize.notMem rfl,
        hafter.notMem rfl⟩
    have hfront : '[' ∉ front ++ gap := by
      simpa using ⟨hopen, hgap.notMem rfl⟩
    have htrim : trim (before ++ size ++ after) = size :=
      trim_append_append hbefore hafter
        (fun c hc ↦ hsize.solid.2 c (List.mem_of_mem_head? hc))
        (fun c hc ↦ hsize.solid.2 c (List.mem_of_mem_getLast? hc))
    have hassoc : front ++ (gap ++ '[' :: (before ++ size ++ after ++ ']' :: s)) =
        (front ++ gap ++ '[' :: (before ++ size ++ after)) ++ ']' :: s := by simp
    have hlater : writtenSizes ([] ++ s) = sizes := ih List.not_mem_nil List.not_mem_nil
    rw [hassoc, writtenSizes, List.splitOn_append_cons_self, List.splitOn_eq_singleton hpiece,
      List.singleton_append, List.dropLast_cons_of_ne_nil (List.splitOn_ne_nil _ _), List.map_cons,
      dropWhile_ne_append hfront (by simp), List.tail_cons, htrim]
    exact congrArg (size :: ·) hlater

theorem writtenSizes_of_spells {text : List Char} {ws sizes : List (List Char)} {pointers : Nat}
    (h : Spells text ws pointers sizes) : writtenSizes text = sizes := by
  obtain ⟨before, body, rest, hbefore, hbody, hrest, rfl⟩ := h.exists_split
  have habsent : ∀ d, isWordChar d = false → isBlank d = false → d ∉ before ++ body := by
    intro d hword hblank
    rw [List.mem_append, not_or]
    exact ⟨hbefore.notMem hblank, notMem_of_spaced hbody h.word_of_mem hword hblank⟩
  exact writtenSizes_append_suffix hrest (habsent '[' rfl rfl) (habsent ']' rfl rfl)

/-! ### What is read -/

theorem spaced_intercalate {ws : List (List Char)} (hne : ws ≠ []) :
    Spaced ws (" ".intercalate (ws.map String.ofList)).toList := by
  induction ws with
  | nil => exact absurd rfl hne
  | cons w ws ih =>
    cases ws with
    | nil => simpa using Spaced.word w
    | cons v ws =>
      have hgap : Blanks [' '] := by simp [Blanks, isBlank, inRanges, blankRanges]
      have hspaced := Spaced.cons (w := w) (List.cons_ne_nil ' ' []) hgap
        (ih (List.cons_ne_nil v ws))
      rw [List.map_cons, List.map_cons, String.intercalate_cons_cons]
      simpa using hspaced

/-- The words of a base type can be read back. -/
theorem words_intercalate {ws : List (List Char)} (hws : ∀ w ∈ ws, Word w) :
    words (" ".intercalate (ws.map String.ofList)).toList = ws := by
  by_cases hne : ws = []
  · rw [hne]
    rfl
  · exact words_of_spaced (spaced_intercalate hne) fun w hw ↦ (hws w hw).solid

theorem words_base_ofParts {ws : List (List Char)} (hws : ∀ w ∈ ws, Word w) (pointers : Nat)
    (sizes : List (List Char)) :
    words (ofParts ws pointers sizes).base.toList = baseWords ws :=
  words_intercalate (word_of_mem_baseWords hws)

theorem dimensions_ofParts (ws : List (List Char)) (pointers : Nat) (sizes : List (List Char)) :
    (ofParts ws pointers sizes).dimensions.map String.toList = sizes := by
  simp [ofParts]

/-- The words of a type, with the leading `const` if there is one. -/
theorem const_append_baseWords (ws : List (List Char)) :
    (if ws.head? = some constWord then [constWord] else []) ++ baseWords ws = ws := by
  unfold baseWords
  split_ifs with hconst
  · exact (List.eq_cons_of_mem_head? hconst).symm
  · rfl

/-- A text that is no type is reported as it stands. -/
theorem ofText_cases (text : String) : (∃ type, ofText text = .ok type) ∨
    ∃ reason, ofText text = .error (.malformedType text reason) := by
  rw [ofText]
  cases parse text with
  | ok type => exact .inl ⟨type, rfl⟩
  | error flaw => exact .inr ⟨flaw.message, rfl⟩

/-- A type of words is named as in C unless a digit is in the way. -/
theorem named_ofParts_iff {ws sizes : List (List Char)} (hws : ∀ w ∈ ws, Word w)
    (hsizes : ∀ size ∈ sizes, Word size) (pointers : Nat) :
    (ofParts ws pointers sizes).Named ↔ ¬ DigitLed (baseWords ws) sizes := by
  have hbase := word_of_mem_baseWords hws
  rw [DigitLed, not_or]
  constructor
  · intro h
    refine ⟨?_, ?_⟩
    · rintro ⟨w, hw, hdigit⟩
      have hname := h.base w (by rwa [words_base_ofParts hws])
      rw [(hbase w hw).isIdentifier_iff, hdigit] at hname
      exact nomatch hname
    · rintro ⟨size, hsize, hdigit, hdecimal⟩
      have hname := h.dimension (String.ofList size) (List.mem_map_of_mem hsize)
      rw [String.toList_ofList] at hname
      exact hdecimal ((isSize_iff (hsizes size hsize)).mp hname hdigit)
  · rintro ⟨hwords, hdimensions⟩
    refine ⟨fun w hw ↦ ?_, fun dimension hdimension ↦ ?_⟩
    · rw [words_base_ofParts hws] at hw
      rw [(hbase w hw).isIdentifier_iff, ← Bool.not_eq_true]
      exact fun hdigit ↦ hwords ⟨w, hw, hdigit⟩
    · obtain ⟨size, hsize, rfl⟩ := List.mem_map.mp hdimension
      rw [String.toList_ofList, isSize_iff (hsizes size hsize)]
      exact fun hdigit ↦ by_contra fun hdecimal ↦ hdimensions ⟨size, hsize, hdigit, hdecimal⟩

/-- A type is read from its words and the sizes in its brackets, and a text is reported in which one
of them is no word. What is read is named as in C exactly if no word begins with a digit and no size
does but a decimal number; texts of words in which one does are read all the same. -/
theorem ofText_tokens (text : String) :
    (∀ type, ofText text = .ok type →
      writtenWords text.toList =
        (if type.isConst then [constWord] else []) ++ words type.base.toList ∧
      writtenSizes text.toList = type.dimensions.map String.toList ∧
      (∀ w ∈ words type.base.toList, Word w) ∧ (∀ size ∈ type.dimensions, Word size.toList) ∧
      (type.Named ↔
        ¬ DigitLed (words type.base.toList) (type.dimensions.map String.toList))) ∧
    ((∃ token ∈ writtenWords text.toList ++ writtenSizes text.toList, ¬ Word token) →
      ∃ reason, ofText text = .error (.malformedType text reason)) ∧
    ((∃ type, ofText text = .ok type ∧ ¬ type.Named) ↔
      ∃ ws pointers sizes, Spells text.toList ws pointers sizes ∧
        DigitLed (baseWords ws) sizes) := by
  refine ⟨fun type htype ↦ ?_, ?_, ?_, ?_⟩
  · obtain ⟨ws, pointers, sizes, h, rfl⟩ := exists_spells_of_ofText htype
    rw [writtenWords_of_spells h, writtenSizes_of_spells h, words_base_ofParts h.word_of_mem,
      dimensions_ofParts]
    refine ⟨?_, rfl, word_of_mem_baseWords h.word_of_mem, fun dimension hdimension ↦ ?_,
      named_ofParts_iff h.word_of_mem h.size_of_mem pointers⟩
    · simpa [ofParts] using (const_append_baseWords ws).symm
    · obtain ⟨size, hsize, rfl⟩ := List.mem_map.mp hdimension
      rw [String.toList_ofList]
      exact h.size_of_mem size hsize
  · rintro ⟨token, htoken, hword⟩
    refine (ofText_cases text).resolve_left ?_
    rintro ⟨type, htype⟩
    obtain ⟨ws, pointers, sizes, h, -⟩ := exists_spells_of_ofText htype
    rw [writtenWords_of_spells h, writtenSizes_of_spells h] at htoken
    exact hword ((List.mem_append.mp htoken).elim (h.word_of_mem token) (h.size_of_mem token))
  · rintro ⟨type, htype, hnamed⟩
    obtain ⟨ws, pointers, sizes, h, rfl⟩ := exists_spells_of_ofText htype
    rw [named_ofParts_iff h.word_of_mem h.size_of_mem, not_not] at hnamed
    exact ⟨ws, pointers, sizes, h, hnamed⟩
  · rintro ⟨ws, pointers, sizes, h, hdigit⟩
    refine ⟨ofParts ws pointers sizes, by rw [ofText, parse_of_spells h]; rfl, ?_⟩
    rwa [named_ofParts_iff h.word_of_mem h.size_of_mem, not_not]

/-- A decimal number, and an identifier that goes on with a digit. -/
theorem ofText_tokens_floats : ofText "const float * [4][MAX_2D]" =
    .ok ⟨"float", true, 1, ["4", "MAX_2D"]⟩ ∧
      CType.Named ⟨"float", true, 1, ["4", "MAX_2D"]⟩ := by
  have hread : ofText "const float * [4][MAX_2D]" =
      .ok ⟨"float", true, 1, ["4", "MAX_2D"]⟩ := rfl
  obtain ⟨-, -, -, -, hnamed⟩ := (ofText_tokens _).1 _ hread
  refine ⟨hread, hnamed.mpr ?_⟩
  decide

/-- Words and sizes that begin with a digit and go on with letters are read. -/
theorem ofText_digitLed :
    (ofText "2D" = .ok ⟨"2D", false, 0, []⟩ ∧ ¬ CType.Named ⟨"2D", false, 0, []⟩) ∧
      ofText "float[4x]" = .ok ⟨"float", false, 0, ["4x"]⟩ ∧
        ¬ CType.Named ⟨"float", false, 0, ["4x"]⟩ := by
  refine ⟨⟨rfl, fun h ↦ ?_⟩, rfl, fun h ↦ ?_⟩
  · exact absurd (h.base ['2', 'D'] (by decide)) (by decide)
  · exact absurd (h.dimension "4x" List.mem_cons_self) (by decide)

end Bindery.CType
