import Bindery.Proofs.Text.Integer
import Bindery.Proofs.Text.Pieces
import Mathlib.Data.List.DropRight

/-!
# The code of a text

`codeLines` reads the code of a text: it passes over the lines that are comments and cuts off the
comment behind the value of an enumerator. A description that is put behind a comment mark adds
`leaks` to this code (`codeLines_comment`, `codeLines_value`), which are the lines behind its first,
as far as they are no comments themselves; a description adds nothing exactly if it is `Concealed`.
-/

set_option autoImplicit false
set_option relaxedAutoImplicit false

namespace Bindery.Emission

open Text

/-- Whether a line is a comment and nothing else. -/
def isComment (line : List Char) : Bool :=
  ['/', '/'].isPrefixOf line || ['\t', '/', '/'].isPrefixOf line

/-- What divides the code of a line from the comment behind it. -/
def commentMark : List Char := [' ', '/', '/', ' ']

/-- Whether code ends in the value of an enumerator. -/
def endsInValue (code : List Char) : Bool :=
  code.getLast?.any Char.isDigit &&
    ([' ', '=', ' '].isSuffixOf (code.rdropWhile Char.isDigit) ||
      [' ', '=', ' ', '-'].isSuffixOf (code.rdropWhile Char.isDigit))

/-- The code of a line, of which a part has been seen: all of it, or what stands before the first
comment behind the value of an enumerator. -/
def codeFrom (seen : List Char) : List Char → List Char
  | [] => seen
  | c :: rest =>
    if endsInValue seen && commentMark.isPrefixOf (c :: rest) then seen
    else codeFrom (seen ++ [c]) rest

/-- The code of those lines that are no comments. -/
def codeOf (lines : List (List Char)) : List (List Char) :=
  (lines.filter fun line ↦ !isComment line).map (codeFrom [])

/-- The lines of code of a text. -/
def codeLines (text : List Char) : List (List Char) := codeOf (text.splitOn '\n')

/-- The code that a description makes when its first line is part of a comment. -/
def leaks (description : String) : List (List Char) :=
  codeOf (description.toList.splitOn '\n').tail

/-- All lines of a description behind the first are comments. -/
def Concealed (description : String) : Prop :=
  ∀ line ∈ (description.toList.splitOn '\n').tail, isComment line = true

instance (description : String) : Decidable (Concealed description) :=
  inferInstanceAs (Decidable (∀ line ∈ (description.toList.splitOn '\n').tail,
    isComment line = true))

example : codeLines "// Keys\n\ta = 65 // A\n\tb = 66\n".toList =
    ["\ta = 65", "\tb = 66", ""].map String.toList := by
  decide

/-! ### Lines -/

theorem codeOf_append (lines later : List (List Char)) :
    codeOf (lines ++ later) = codeOf lines ++ codeOf later := by
  rw [codeOf, List.filter_append, List.map_append]
  rfl

theorem codeOf_eq_nil_iff {lines : List (List Char)} :
    codeOf lines = [] ↔ ∀ line ∈ lines, isComment line = true := by
  rw [codeOf, List.map_eq_nil_iff, List.filter_eq_nil_iff]
  simp

theorem leaks_eq_nil_iff {description : String} : leaks description = [] ↔ Concealed description :=
  codeOf_eq_nil_iff

/-- A description on one line adds no code. -/
theorem concealed_of_newline_notMem {description : String} (h : '\n' ∉ description.toList) :
    Concealed description := by
  rw [Concealed, List.splitOn_eq_singleton h]
  exact fun line hline ↦ nomatch hline

theorem codeLines_append_newline (s t : List Char) :
    codeLines (s ++ '\n' :: t) = codeLines s ++ codeLines t := by
  rw [codeLines, List.splitOn_append_cons_self, codeOf_append]
  rfl

/-- The code of ended lines is that of each of them, and the empty line behind the last. -/
theorem codeLines_ended (lines : List (List Char)) :
    codeLines (lines.flatMap fun line ↦ line ++ ['\n']) = lines.flatMap codeLines ++ [[]] := by
  induction lines with
  | nil => rfl
  | cons line lines ih =>
    rw [List.flatMap_cons, List.append_assoc, List.singleton_append, codeLines_append_newline, ih,
      List.flatMap_cons, List.append_assoc]

/-! ### Comments behind values -/

theorem isPrefixOf_append {p s t : List Char} (hlength : p.length ≤ s.length) :
    p.isPrefixOf (s ++ t) = p.isPrefixOf s := by
  rw [Bool.eq_iff_iff, List.isPrefixOf_iff_prefix, List.isPrefixOf_iff_prefix]
  constructor
  · exact fun h ↦ List.prefix_of_prefix_length_le h (List.prefix_append s t) hlength
  · exact fun h ↦ h.trans (List.prefix_append s t)

/-- Whether a line is a comment is seen from its first three characters. -/
theorem isComment_append {s t : List Char} (hlength : 3 ≤ s.length) :
    isComment (s ++ t) = isComment s := by
  have htwo : ['/', '/'].length ≤ s.length := Nat.le_of_succ_le hlength
  have hthree : ['\t', '/', '/'].length ≤ s.length := hlength
  rw [isComment, isComment, isPrefixOf_append htwo, isPrefixOf_append hthree]

theorem endsInDigit_append_repr (before : List Char) (n : Nat) :
    (before ++ n.repr.toList).getLast?.any Char.isDigit = true := by
  have hne : n.repr.toList ≠ [] := by
    rw [Nat.toList_repr]
    exact Nat.toDigits_ne_nil
  rw [List.getLast?_append_of_ne_nil _ hne, List.getLast?_eq_some_getLast hne, Option.any_some]
  exact isDigit_of_mem_repr (List.getLast_mem hne)

theorem rdropWhile_append_repr {before : List Char} (n : Nat)
    (hbefore : ∀ c ∈ before.getLast?, c.isDigit = false) :
    (before ++ n.repr.toList).rdropWhile Char.isDigit = before := by
  have hdigits : ∀ c ∈ n.repr.toList.reverse, c.isDigit = true := fun c hc ↦
    isDigit_of_mem_repr (List.mem_reverse.mp hc)
  have hhead : ∀ c ∈ before.reverse.head?, c.isDigit = false := by rwa [List.head?_reverse]
  rw [List.rdropWhile, List.reverse_append, dropWhile_append_of_head? hdigits hhead,
    List.reverse_reverse]

theorem endsInValue_append_toString (code : List Char) (value : Int) :
    endsInValue (code ++ [' ', '=', ' '] ++ (toString value).toList) = true := by
  rw [Int.toString_eq_repr, Int.repr_eq_if]
  split_ifs
  · rw [endsInValue, endsInDigit_append_repr, rdropWhile_append_repr _ (by simp)]
    simp
  · have hminus : code ++ [' ', '=', ' '] ++ ("-" ++ (-value).toNat.repr).toList =
        code ++ [' ', '=', ' ', '-'] ++ (-value).toNat.repr.toList := by simp
    rw [hminus, endsInValue, endsInDigit_append_repr, rdropWhile_append_repr _ (by simp)]
    simp

/-- A comment mark behind a digit does not start within the text that ends in the digit. -/
theorem isPrefixOf_commentMark_append {s : List Char} (hs : s.getLast?.any Char.isDigit = true)
    (t : List Char) : commentMark.isPrefixOf (s ++ t) = commentMark.isPrefixOf s := by
  by_cases hlength : commentMark.length ≤ s.length
  · exact isPrefixOf_append hlength
  · -- A mark that begins in `s` and ends behind it would hold the digit at the end of `s`.
    have hother : ∀ t, commentMark.isPrefixOf (s ++ t) = false := by
      intro t
      rw [Bool.eq_false_iff, ne_eq, List.isPrefixOf_iff_prefix]
      intro hmark
      have hshort : s <+: commentMark :=
        List.prefix_of_prefix_length_le (List.prefix_append s t) hmark (by omega)
      obtain ⟨c, hc, hdigit⟩ := (Option.any_eq_true _ _).mp hs
      have hmem : c ∈ commentMark := hshort.subset (List.mem_of_getLast? hc)
      have hmarks : (commentMark.all fun c ↦ !c.isDigit) = true := by decide
      have hnone := List.all_eq_true.mp hmarks c hmem
      rw [hdigit] at hnone
      exact nomatch hnone
    rw [hother t, ← List.append_nil s, hother []]

theorem endsInDigit_of_endsInValue {code : List Char} (h : endsInValue code = true) :
    code.getLast?.any Char.isDigit = true :=
  (Bool.and_eq_true_iff.mp h).1

/-- A comment behind a value is cut off. -/
theorem codeFrom_append {seen s : List Char} (hs : endsInValue (seen ++ s) = true) (t : List Char) :
    codeFrom seen (s ++ (commentMark ++ t)) = codeFrom seen s := by
  induction s generalizing seen with
  | nil =>
    rw [List.append_nil] at hs
    have hmark : commentMark.isPrefixOf (commentMark ++ t) = true :=
      List.isPrefixOf_iff_prefix.mpr (List.prefix_append _ _)
    exact if_pos (Bool.and_eq_true_iff.mpr ⟨hs, hmark⟩)
  | cons c s ih =>
    have hlater : endsInValue (seen ++ [c] ++ s) = true := by
      rwa [List.append_assoc, List.singleton_append]
    have hdigit : (c :: s).getLast?.any Char.isDigit = true := by
      have hlast := endsInDigit_of_endsInValue hs
      rwa [List.getLast?_append_of_ne_nil _ (List.cons_ne_nil c s)] at hlast
    rw [List.cons_append, codeFrom, codeFrom, ih hlater, ← List.cons_append,
      isPrefixOf_commentMark_append hdigit]

/-! ### Descriptions -/

theorem exists_splitOn_description (description : String) : ∃ first,
    description.toList.splitOn '\n' = first :: (description.toList.splitOn '\n').tail := by
  obtain ⟨first, rest, hlines⟩ :=
    List.exists_cons_of_ne_nil (List.splitOn_ne_nil '\n' description.toList)
  exact ⟨first, by rw [hlines, List.tail_cons]⟩

/-- Behind the mark of a comment line, a description adds what it leaks. -/
theorem codeLines_comment {indent : String} (hindent : indent = "" ∨ indent = "\t")
    (description : String) :
    codeLines (indent ++ "// " ++ description).toList = leaks description := by
  have hmark : isComment (indent ++ "// ").toList = true ∧ 3 ≤ (indent ++ "// ").toList.length ∧
      '\n' ∉ (indent ++ "// ").toList := by
    rcases hindent with rfl | rfl
    · decide
    · decide
  obtain ⟨hcomment, hlength, hnewline⟩ := hmark
  obtain ⟨first, hfirst⟩ := exists_splitOn_description description
  have hline : isComment ((indent ++ "// ").toList ++ first) = true := by
    rwa [isComment_append hlength]
  rw [codeLines, String.toList_append, splitOn_append_of_notMem hnewline, hfirst,
    List.modifyHead_cons, codeOf, List.filter_cons_of_neg (by rw [hline]; decide)]
  rfl

theorem codeOf_value {code : List Char} (hlength : 3 ≤ code.length)
    (hvalue : endsInValue code = true) (t : List Char) :
    codeOf [code ++ (commentMark ++ t)] = codeOf [code] := by
  rw [codeOf, codeOf, List.filter_singleton, List.filter_singleton, isComment_append hlength]
  cases isComment code with
  | true => rfl
  | false =>
    have hseen : endsInValue ([] ++ code) = true := hvalue
    have hcode := codeFrom_append hseen t
    change [codeFrom [] _] = [codeFrom [] _]
    rw [hcode]

/-- Behind the value of an enumerator, a description adds what it leaks. -/
theorem codeLines_value (name : String) (value : Int) (description : String) :
    codeLines (name ++ " = " ++ toString value ++ " // " ++ description).toList =
      codeLines (name ++ " = " ++ toString value).toList ++ leaks description := by
  obtain ⟨lines, last, happend⟩ := exists_splitOn_append '\n' name.toList
  obtain ⟨first, hfirst⟩ := exists_splitOn_description description
  have hcode : (name ++ " = " ++ toString value).toList =
      name.toList ++ ([' ', '=', ' '] ++ (toString value).toList) := by simp
  have hwhole : (name ++ " = " ++ toString value ++ " // " ++ description).toList =
      name.toList ++ ([' ', '=', ' '] ++ (toString value).toList ++ commentMark ++
        description.toList) := by simp [commentMark]
  generalize hshown : [' ', '=', ' '] ++ (toString value).toList = shown at hcode hwhole
  have hnewline : '\n' ∉ shown := by
    rw [← hshown, List.mem_append, not_or]
    exact ⟨by decide, notMem_toString value rfl (by decide)⟩
  have hmark : '\n' ∉ shown ++ commentMark := by
    rw [List.mem_append, not_or]
    exact ⟨hnewline, by decide⟩
  have hlast : codeOf [last ++ (shown ++ commentMark ++ first)] = codeOf [last ++ shown] := by
    have hvalue := endsInValue_append_toString last value
    rw [List.append_assoc, hshown] at hvalue
    have hlength : 3 ≤ (last ++ shown).length := by
      rw [← hshown]
      simp
      omega
    rw [List.append_assoc, ← List.append_assoc last]
    exact codeOf_value hlength hvalue first
  calc codeLines (name ++ " = " ++ toString value ++ " // " ++ description).toList
      = codeOf (lines ++ (last ++ (shown ++ commentMark ++ first)) ::
          (description.toList.splitOn '\n').tail) := by
        rw [hwhole, codeLines, happend, splitOn_append_of_notMem hmark, hfirst,
          List.modifyHead_cons, List.modifyHead_cons, List.tail_cons]
    _ = codeOf lines ++ codeOf [last ++ shown] ++ leaks description := by
        rw [← List.singleton_append, codeOf_append, codeOf_append, hlast, List.append_assoc]
        rfl
    _ = codeLines (name ++ " = " ++ toString value).toList ++ leaks description := by
        rw [hcode, codeLines, happend, List.splitOn_eq_singleton hnewline, List.modifyHead_cons,
          codeOf_append]

end Bindery.Emission
