import Bindery.Proofs.Identifier.Word
import Bindery.Proofs.Text.Lowercase
import Bindery.Proofs.Text.Replace

/-!
# What snake case does to a name

Every step puts in underscores and characters of words alone, and none makes a text empty, so that
snake case makes words of words (`Word.snake`).

Up to lower case all that the steps do is put underscores in, whichever acronyms meet or overlap
(`underscored_snake`): a name in snake case is the lower case of the name with underscores in it,
and names that become the same differ in case and underscores alone (`snakeCase_underscored`).

In lower case there is no capital, so no acronym and nothing to separate: snake case is idempotent
(`snakeCase_snakeCase`).
-/

set_option autoImplicit false
set_option relaxedAutoImplicit false

namespace Bindery.Identifier

open Text

/-! ### Where the characters come from -/

theorem mem_joinAcronymsOf {table : List (List Char)} {name : List Char}
    (htable : ∀ acronym ∈ table, acronym ≠ []) {c : Char} (hc : c ∈ joinAcronymsOf table name) :
    c ∈ name ∨ ∃ acronym ∈ table, c ∈ segment acronym := by
  induction table generalizing name with
  | nil => exact .inl hc
  | cons acronym table ih =>
    rcases ih (fun a ha ↦ htable a (List.mem_cons_of_mem acronym ha)) hc with hc | ⟨a, ha, hc⟩
    · refine (mem_replaceAll (htable acronym List.mem_cons_self) hc).symm.imp_right fun hc ↦ ?_
      exact ⟨acronym, List.mem_cons_self, hc⟩
    · exact .inr ⟨a, List.mem_cons_of_mem acronym ha, hc⟩

theorem joinAcronymsOf_ne_nil {table : List (List Char)} {name : List Char} (hname : name ≠ []) :
    joinAcronymsOf table name ≠ [] := by
  induction table generalizing name with
  | nil => exact hname
  | cons acronym table ih => exact ih (replaceAll_ne_nil (List.cons_ne_nil _ _) hname)

theorem mem_separateCapitals {name : List Char} {c : Char} (hc : c ∈ separateCapitals name) :
    c = '_' ∨ c ∈ name := by
  cases name with
  | nil => exact nomatch hc
  | cons d s =>
    rcases List.mem_cons.mp hc with rfl | hc
    · exact .inr List.mem_cons_self
    · obtain ⟨e, he, hc⟩ := List.mem_flatMap.mp hc
      unfold separated at hc
      split_ifs at hc
      · refine (List.mem_cons.mp hc).imp_right fun hc ↦ ?_
        rw [List.mem_singleton.mp hc]
        exact List.mem_cons_of_mem d he
      · rw [List.mem_singleton.mp hc]
        exact .inr (List.mem_cons_of_mem d he)

/-! ### Words -/

theorem isWordChar_toLower {c : Char} (hc : isWordChar c = true) :
    isWordChar c.toLower = true :=
  forall_ascii (p := fun c ↦ isWordChar c = true → isWordChar c.toLower = true) (by decide +kernel)
    (toNat_lt_of_isWordChar hc) hc

theorem Word.toNat_lt {s : List Char} (hs : Word s) : ∀ c ∈ s, c.toNat < 128 := fun _ hc ↦
  toNat_lt_of_isWordChar (hs.isWordChar_of_mem hc)

theorem word_segment {acronym : List Char} (hacronym : Word acronym) : Word (segment acronym) := by
  refine .intro (List.cons_ne_nil _ _) fun c hc ↦ ?_
  rcases List.mem_cons.mp hc with rfl | hc
  · rfl
  · obtain ⟨d, hd, rfl⟩ := List.mem_map.mp hc
    exact isWordChar_toLower (hacronym.isWordChar_of_mem hd)

theorem word_of_mem_acronyms : ∀ acronym ∈ acronyms, Word acronym := by
  unfold Word
  decide

theorem Word.joinAcronymsOf {table : List (List Char)} {name : List Char}
    (htable : ∀ acronym ∈ table, Word acronym) (hname : Word name) :
    Word (joinAcronymsOf table name) := by
  refine .intro (joinAcronymsOf_ne_nil hname.1) fun c hc ↦ ?_
  rcases mem_joinAcronymsOf (fun a ha ↦ (htable a ha).1) hc with hc | ⟨acronym, hacronym, hc⟩
  · exact hname.isWordChar_of_mem hc
  · exact (word_segment (htable acronym hacronym)).isWordChar_of_mem hc

theorem Word.separateCapitals {name : List Char} (hname : Word name) :
    Word (separateCapitals name) := by
  obtain ⟨c, s, rfl⟩ := List.exists_cons_of_ne_nil hname.1
  refine .intro (List.cons_ne_nil _ _) fun d hd ↦ ?_
  rcases mem_separateCapitals hd with rfl | hd
  · rfl
  · exact hname.isWordChar_of_mem hd

theorem Word.lowercase {name : List Char} (hname : Word name) : Word (lowercase name) := by
  rw [lowercase_of_ascii hname.toNat_lt]
  refine .intro (mt List.map_eq_nil_iff.mp hname.1) fun c hc ↦ ?_
  obtain ⟨d, hd, rfl⟩ := List.mem_map.mp hc
  exact isWordChar_toLower (hname.isWordChar_of_mem hd)

/-- A word in snake case is a word. -/
theorem Word.snake {name : List Char} (hname : Word name) : Word (snake name) :=
  ((hname.joinAcronymsOf word_of_mem_acronyms).separateCapitals).lowercase

theorem word_snakeCase {name : String} (hname : Word name.toList) :
    Word (snakeCase name).toList := by
  rw [snakeCase, String.toList_ofList]
  exact hname.snake

/-! ### Underscores -/

/-- The second text is the first one with underscores put in. -/
structure Underscored (s t : List Char) : Prop where
  sublist : s.Sublist t
  filter_eq : t.filter (· ≠ '_') = s.filter (· ≠ '_')

namespace Underscored

theorem refl (s : List Char) : Underscored s s := ⟨.refl s, rfl⟩

theorem trans {s t u : List Char} (hst : Underscored s t) (htu : Underscored t u) :
    Underscored s u :=
  ⟨hst.sublist.trans htu.sublist, htu.filter_eq.trans hst.filter_eq⟩

theorem append {s t u v : List Char} (hst : Underscored s t) (huv : Underscored u v) :
    Underscored (s ++ u) (t ++ v) := by
  refine ⟨hst.sublist.append huv.sublist, ?_⟩
  rw [List.filter_append, List.filter_append, hst.filter_eq, huv.filter_eq]

theorem cons (s : List Char) : Underscored s ('_' :: s) := ⟨List.sublist_cons_self _ s, rfl⟩

end Underscored

theorem lowerFull_underscore : lowerFull '_' = ['_'] := by
  rw [lowerFull_of_ascii (by decide)]
  rfl

/-- Up to lower case, the segment of an acronym is the acronym after an underscore. -/
theorem underscored_segment {acronym : List Char} (hacronym : Word acronym) :
    Underscored (acronym.flatMap lowerFull) ((segment acronym).flatMap lowerFull) := by
  have hlowered : ∀ c ∈ acronym.flatMap lowerFull, IsLowered c := by
    intro c hc
    obtain ⟨d, -, hc⟩ := List.mem_flatMap.mp hc
    exact isLowered_of_mem_lowerFull hc
  have hsegment : (segment acronym).flatMap lowerFull = '_' :: acronym.flatMap lowerFull := by
    rw [segment, List.flatMap_cons, lowerFull_underscore,
      ← flatMap_lowerFull_of_ascii hacronym.toNat_lt, flatMap_lowerFull_of_isLowered hlowered]
    rfl
  rw [hsegment]
  exact .cons _

theorem underscored_joinAcronymsOf {table : List (List Char)}
    (htable : ∀ acronym ∈ table, Word acronym) (name : List Char) :
    Underscored (name.flatMap lowerFull) ((joinAcronymsOf table name).flatMap lowerFull) := by
  induction table generalizing name with
  | nil => exact .refl _
  | cons acronym table ih =>
    have hacronym := htable acronym List.mem_cons_self
    have hreplaced : Underscored (name.flatMap lowerFull)
        ((replaceAll acronym (segment acronym) name).flatMap lowerFull) := by
      refine replaceAll_induction
        (motive := fun s t ↦ Underscored (s.flatMap lowerFull) (t.flatMap lowerFull)) hacronym.1
        (.refl _) (fun s t hst ↦ ?_) (fun c s t hst ↦ ?_) name
      · rw [List.flatMap_append, List.flatMap_append]
        exact (underscored_segment hacronym).append hst
      · rw [List.flatMap_cons, List.flatMap_cons]
        exact (Underscored.refl _).append hst
    exact hreplaced.trans (ih (fun a ha ↦ htable a (List.mem_cons_of_mem acronym ha)) _)

theorem underscored_separated (c : Char) :
    Underscored (lowerFull c) ((separated c).flatMap lowerFull) := by
  unfold separated
  split_ifs
  · rw [List.flatMap_cons, lowerFull_underscore, List.flatMap_singleton]
    exact .cons _
  · rw [List.flatMap_singleton]
    exact .refl _

theorem underscored_separateCapitals (name : List Char) :
    Underscored (name.flatMap lowerFull) ((separateCapitals name).flatMap lowerFull) := by
  have htail : ∀ s : List Char,
      Underscored (s.flatMap lowerFull) ((s.flatMap separated).flatMap lowerFull) := by
    intro s
    induction s with
    | nil => exact .refl _
    | cons c s ih =>
      rw [List.flatMap_cons, List.flatMap_cons, List.flatMap_append]
      exact (underscored_separated c).append ih
  cases name with
  | nil => exact .refl _
  | cons c s =>
    rw [separateCapitals, List.flatMap_cons, List.flatMap_cons]
    exact (Underscored.refl _).append (htail s)

theorem sigma_notMem_separateCapitals {name : List Char} (hname : 'Σ' ∉ name) :
    'Σ' ∉ separateCapitals (joinAcronyms name) := by
  intro hmem
  rcases mem_separateCapitals hmem with hmem | hmem
  · exact absurd hmem (by decide)
  · rcases mem_joinAcronymsOf (fun a ha ↦ (word_of_mem_acronyms a ha).1) hmem with
      hmem | ⟨acronym, hacronym, hmem⟩
    · exact hname hmem
    · exact (word_segment (word_of_mem_acronyms acronym hacronym)).notMem (by decide) hmem

/-- A name in snake case is its lower case with underscores put in. -/
theorem underscored_snake {name : List Char} (hname : 'Σ' ∉ name) :
    Underscored (lowercase name) (snake name) := by
  rw [snake, lowercase_of_sigma_notMem hname,
    lowercase_of_sigma_notMem (sigma_notMem_separateCapitals hname)]
  exact (underscored_joinAcronymsOf word_of_mem_acronyms name).trans
    (underscored_separateCapitals _)

/-- Without a capital sigma, whose lower case depends on its place, a name in snake case is the
lower case of the name with underscores put in, and two names become the same only if their lower
cases are the same but for underscores. -/
theorem snakeCase_underscored {name : String} (hname : 'Σ' ∉ name.toList) :
    (lowercase name.toList).Sublist (snakeCase name).toList ∧
      (snakeCase name).toList.filter (· ≠ '_') = (lowercase name.toList).filter (· ≠ '_') ∧
      ∀ other : String, 'Σ' ∉ other.toList → snakeCase other = snakeCase name →
        (lowercase other.toList).filter (· ≠ '_') = (lowercase name.toList).filter (· ≠ '_') := by
  have hsnake : ∀ text : String, 'Σ' ∉ text.toList →
      Underscored (lowercase text.toList) (snakeCase text).toList := by
    intro text htext
    rw [snakeCase, String.toList_ofList]
    exact underscored_snake htext
  refine ⟨(hsnake name hname).sublist, (hsnake name hname).filter_eq, fun other hother heq ↦ ?_⟩
  rw [← (hsnake other hother).filter_eq, heq, (hsnake name hname).filter_eq]

/-- The acronyms `2D` and `DPI` share a letter, and `İ` becomes two characters. -/
theorem snakeCase_underscored_overlapping : 'Σ' ∉ "GetİCCW2DPI".toList ∧
    (snakeCase "GetİCCW2DPI").toList.filter (· ≠ '_') = "geti\u0307ccw2dpi".toList :=
  ⟨by decide, (snakeCase_underscored (by decide)).2.1.trans (by decide +kernel)⟩

/-! ### Snake case of snake case -/

/-- A capital of ASCII is not lower case. -/
theorem isUpper_eq_of_isLowered {c : Char} (hc : IsLowered c) :
    c.isUpper = false := by
  refine Bool.eq_false_iff.mpr fun hupper ↦ ?_
  have hascii : c.toNat < 128 := Nat.lt_of_le_of_lt (isUpper_iff.mp hupper).2 (by decide)
  have hlower : c.toLower = c := by
    rw [← List.singleton_inj, ← lowerFull_of_ascii hascii, hc.lowerFull_eq]
  exact forall_ascii (p := fun c ↦ c.isUpper = true → c.toLower ≠ c) (by decide +kernel) hascii
    hupper hlower

theorem any_isUpper_of_mem_acronyms :
    ∀ acronym ∈ acronyms, acronym.any Char.isUpper = true := by
  decide

/-- A name in which no acronym occurs is left as it is. -/
theorem joinAcronymsOf_of_absent {table : List (List Char)} {name : List Char}
    (htable : ∀ acronym ∈ table, ¬ acronym <:+: name) : joinAcronymsOf table name = name := by
  induction table with
  | nil => rfl
  | cons acronym table ih =>
    rw [joinAcronymsOf, List.foldl_cons, replaceAll_of_absent (htable acronym List.mem_cons_self)]
    exact ih fun a ha ↦ htable a (List.mem_cons_of_mem acronym ha)

/-- Acronyms with capitals occur in no text without capitals. -/
theorem joinAcronymsOf_of_isUpper_eq {table : List (List Char)} {name : List Char}
    (htable : ∀ acronym ∈ table, acronym.any Char.isUpper = true)
    (hname : ∀ c ∈ name, c.isUpper = false) : joinAcronymsOf table name = name := by
  refine joinAcronymsOf_of_absent fun acronym hacronym hoccurs ↦ ?_
  obtain ⟨c, hc, hupper⟩ := List.any_eq_true.mp (htable acronym hacronym)
  rw [hname c (hoccurs.subset hc)] at hupper
  exact Bool.false_ne_true hupper

theorem separateCapitals_of_isUpper_eq {name : List Char} (hname : ∀ c ∈ name, c.isUpper = false) :
    separateCapitals name = name := by
  cases name with
  | nil => rfl
  | cons c s =>
    have hkept : ∀ d ∈ s, separated d = [d] := fun d hd ↦
      if_neg (Bool.eq_false_iff.mp (hname d (List.mem_cons_of_mem c hd)))
    rw [separateCapitals, List.flatMap_congr hkept, List.flatMap_singleton']

/-- Snake case leaves lower case as it is. -/
theorem snake_of_isLowered {name : List Char} (hname : ∀ c ∈ name, IsLowered c) :
    snake name = name := by
  have hlower := fun c hc ↦ isUpper_eq_of_isLowered (hname c hc)
  rw [snake, joinAcronyms, joinAcronymsOf_of_isUpper_eq any_isUpper_of_mem_acronyms hlower,
    separateCapitals_of_isUpper_eq hlower, lowercase_of_isLowered hname]

theorem snake_snake (name : List Char) : snake (snake name) = snake name :=
  snake_of_isLowered fun _ ↦ isLowered_of_mem_lowercase

/-- Snake case is idempotent. -/
theorem snakeCase_snakeCase (name : String) : snakeCase (snakeCase name) = snakeCase name := by
  rw [snakeCase, snakeCase, String.toList_ofList, snake_snake]

end Bindery.Identifier
