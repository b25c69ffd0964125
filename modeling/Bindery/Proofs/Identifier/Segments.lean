import Bindery.Proofs.Identifier.Snake
import Mathlib.Computability.RegularExpressions

/-!
# Names in snake case are made of segments

A name of letters and digits becomes segments of small letters and digits with single underscores
between them (`snakeCase_segments`). There are two sources of underscores, the segments of acronyms
and the capitals, and they never meet: what joining acronyms leaves `IsJoined`, so that a small
letter or a digit and a small letter come behind every underscore. No acronym begins like that,
since each begins with a capital or a digit and a capital, and no capital stands there that would
take a second underscore.
-/

set_option autoImplicit false
set_option relaxedAutoImplicit false

namespace Bindery.Identifier

open Text

/-! ### The shape of a name in snake case -/

/-- A letter, and then letters and digits. -/
def IsName : List Char → Prop
  | [] => False
  | c :: s => c.isAlpha = true ∧ s.all Char.isAlphanum = true

instance : DecidablePred IsName
  | [] => inferInstanceAs (Decidable False)
  | c :: s => inferInstanceAs (Decidable (c.isAlpha = true ∧ s.all Char.isAlphanum = true))

/-- Small letters and digits. -/
def isSmall (c : Char) : Bool := c.isLower || c.isDigit

def smallLetters : List Char := "abcdefghijklmnopqrstuvwxyz".toList

def decimalDigits : List Char := "0123456789".toList

section Shape

open RegularExpression

/-- One of some characters. -/
def oneOf (cs : List Char) : RegularExpression Char := (cs.map char).foldr (· + ·) 0

/-- `(_[a-z0-9]+)*` -/
def laterSegments : RegularExpression Char :=
  star (char '_' * (oneOf (smallLetters ++ decimalDigits) *
    star (oneOf (smallLetters ++ decimalDigits))))

/-- `_?[a-z][a-z0-9]*(_[a-z0-9]+)*` -/
def snakeShape : RegularExpression Char :=
  (1 + char '_') * (oneOf smallLetters *
    (star (oneOf (smallLetters ++ decimalDigits)) * laterSegments))

end Shape

/-- Small letters and digits, and underscores that stand in front of one. -/
def IsSegmented : List Char → Prop
  | [] => True
  | c :: s => (isSmall c = true ∨ c = '_' ∧ s.head?.any isSmall = true) ∧ IsSegmented s

theorem mem_oneOf {c : Char} {cs : List Char} (hc : c ∈ cs) : [c] ∈ (oneOf cs).matches' := by
  induction cs with
  | nil => exact nomatch hc
  | cons d cs ih =>
    rw [oneOf, List.map_cons, List.foldr_cons, RegularExpression.matches'_add]
    rcases List.mem_cons.mp hc with rfl | hc
    · exact .inl rfl
    · exact .inr (ih hc)

theorem toNat_of_isAlphanum {c : Char} (hc : c.isAlphanum = true) : c.toNat < 128 :=
  toNat_lt_of_isWordChar (by rw [isWordChar, hc, Bool.true_or])

theorem isAlphanum_of_isSmall {c : Char} (hc : isSmall c = true) : c.isAlphanum = true := by
  rcases Bool.or_eq_true_iff.mp hc with hlower | hdigit
  · exact Bool.or_eq_true_iff.mpr (.inl (Bool.or_eq_true_iff.mpr (.inr hlower)))
  · exact Bool.or_eq_true_iff.mpr (.inr hdigit)

theorem mem_smallLetters {c : Char} (hc : c.isLower = true) : c ∈ smallLetters :=
  forall_ascii (p := fun c ↦ c.isLower = true → c ∈ smallLetters) (by decide +kernel)
    (toNat_of_isAlphanum (isAlphanum_of_isSmall (by rw [isSmall, hc, Bool.true_or]))) hc

theorem mem_decimalDigits {c : Char} (hc : c.isDigit = true) : c ∈ decimalDigits :=
  forall_ascii (p := fun c ↦ c.isDigit = true → c ∈ decimalDigits) (by decide +kernel)
    (toNat_of_isAlphanum (isAlphanum_of_isSmall (by rw [isSmall, hc, Bool.or_true]))) hc

theorem small_mem {c : Char} (hc : isSmall c = true) :
    [c] ∈ (oneOf (smallLetters ++ decimalDigits)).matches' := by
  refine mem_oneOf (List.mem_append.mpr ?_)
  exact (Bool.or_eq_true_iff.mp hc).imp mem_smallLetters mem_decimalDigits

theorem append_mem_star {pattern : RegularExpression Char} {s t : List Char}
    (hs : s ∈ pattern.matches') (ht : t ∈ pattern.star.matches') :
    s ++ t ∈ pattern.star.matches' := by
  rw [RegularExpression.matches'_star] at ht ⊢
  have hle : pattern.matches' * KStar.kstar pattern.matches' ≤ KStar.kstar pattern.matches' :=
    mul_kstar_le_kstar
  exact hle (Language.append_mem_mul hs ht)

theorem nil_mem_star (pattern : RegularExpression Char) : [] ∈ pattern.star.matches' := by
  rw [RegularExpression.matches'_star]
  exact Language.nil_mem_kstar _

/-- Small letters and digits, and segments behind them. The underscore of a segment is taken with the
character behind it, which the segment needs. -/
theorem IsSegmented.exists_segments : ∀ {s : List Char}, IsSegmented s → ∃ rest segments,
    rest ∈ (oneOf (smallLetters ++ decimalDigits)).star.matches' ∧
      segments ∈ laterSegments.matches' ∧ s = rest ++ segments
  | [], _ => ⟨[], [], nil_mem_star _, nil_mem_star _, rfl⟩
  | c :: s, ⟨.inl hc, hs⟩ => by
    obtain ⟨rest, segments, hrest, hsegments, rfl⟩ := exists_segments hs
    exact ⟨c :: rest, segments, append_mem_star (small_mem hc) hrest, hsegments, rfl⟩
  | c :: d :: s, ⟨.inr ⟨hc, hd⟩, hs⟩ => by
    obtain ⟨rest, segments, hrest, hsegments, rfl⟩ := exists_segments hs.2
    have hsegment : '_' :: d :: rest ∈ (RegularExpression.char '_' *
        (oneOf (smallLetters ++ decimalDigits) *
          (oneOf (smallLetters ++ decimalDigits)).star)).matches' :=
      Language.append_mem_mul (a := ['_']) rfl (Language.append_mem_mul (small_mem hd) hrest)
    exact ⟨[], '_' :: d :: rest ++ segments, nil_mem_star _,
      append_mem_star hsegment hsegments, by rw [hc]; rfl⟩

theorem IsSegmented.isSmall_or_eq {s : List Char} (hs : IsSegmented s) :
    ∀ c ∈ s, isSmall c = true ∨ c = '_' := by
  induction s with
  | nil => exact fun _ hc ↦ (nomatch hc)
  | cons c s ih => exact List.forall_mem_cons.mpr ⟨hs.1.imp_right And.left, ih hs.2⟩

theorem isSmall_underscore : isSmall '_' = false := by decide

theorem IsSegmented.not_infix {s : List Char} (hs : IsSegmented s) : ¬ ['_', '_'] <:+: s := by
  induction s with
  | nil => exact fun h ↦ (nomatch List.infix_nil.mp h)
  | cons c s ih =>
    intro h
    rcases List.infix_cons_iff.mp h with hfront | hlater
    · obtain ⟨rfl, hnext⟩ := List.cons_prefix_cons.mp hfront
      obtain ⟨rest, rfl⟩ := hnext
      rcases hs.1 with hsmall | ⟨-, hsmall⟩
      · exact absurd (isSmall_underscore.symm.trans hsmall) (by decide)
      · exact absurd (isSmall_underscore.symm.trans hsmall) (by decide)
    · exact ih hs.2 hlater

theorem IsSegmented.getLast?_ne {s : List Char} (hs : IsSegmented s) : s.getLast? ≠ some '_' := by
  induction s with
  | nil => exact fun h ↦ (nomatch h)
  | cons c s ih =>
    cases s with
    | nil =>
      intro h
      rcases hs.1 with hsmall | ⟨-, hnext⟩
      · obtain rfl : c = '_' := Option.some.inj h
        exact absurd (isSmall_underscore.symm.trans hsmall) (by decide)
      · exact nomatch hnext
    | cons d s =>
      rw [List.getLast?_cons_cons]
      exact ih hs.2

/-! ### Joined acronyms -/

/-- Whether a text begins with a character of some kind, or with a digit in front of one. -/
def begins (kind : Char → Bool) : List Char → Bool
  | [] => false
  | c :: s => kind c || c.isDigit && s.head?.any kind

/-- Letters and digits, and underscores that stand in front of a small letter, or of a digit and a
small letter. -/
def IsJoined : List Char → Prop
  | [] => True
  | c :: s => (c.isAlphanum = true ∨ c = '_' ∧ begins Char.isLower s = true) ∧ IsJoined s

/-- Letters and digits that begin with a capital, or with a digit and a capital. -/
def IsAcronym (s : List Char) : Prop := begins Char.isUpper s = true ∧ s.all Char.isAlphanum = true

instance : DecidablePred IsAcronym := fun _ ↦ inferInstanceAs (Decidable (_ ∧ _))

theorem isAcronym_of_mem : ∀ acronym ∈ acronyms, IsAcronym acronym := by decide

theorem isAlphanum_of_isUpper {c : Char} (hc : c.isUpper = true) : c.isAlphanum = true :=
  Bool.or_eq_true_iff.mpr (.inl (Bool.or_eq_true_iff.mpr (.inl hc)))

theorem isAlphanum_of_isDigit {c : Char} (hc : c.isDigit = true) : c.isAlphanum = true :=
  isAlphanum_of_isSmall (Bool.or_eq_true_iff.mpr (.inr hc))

theorem kind_of_isUpper {c : Char} (hc : c.isUpper = true) :
    c.isLower = false ∧ c.isDigit = false :=
  forall_ascii (p := fun c ↦ c.isUpper = true → c.isLower = false ∧ c.isDigit = false)
    (by decide +kernel) (toNat_of_isAlphanum (isAlphanum_of_isUpper hc)) hc

theorem isLower_of_isDigit {c : Char} (hc : c.isDigit = true) : c.isLower = false :=
  forall_ascii (p := fun c ↦ c.isDigit = true → c.isLower = false)
    (by decide +kernel) (toNat_of_isAlphanum (isAlphanum_of_isDigit hc)) hc

/-- The lower case of a letter or a digit is a small letter if it is a letter. -/
theorem toLower_of_isAlphanum {c : Char} (hc : c.isAlphanum = true) :
    c.toLower.isLower = c.isAlpha ∧ c.toLower.isDigit = c.isDigit ∧ isSmall c.toLower = true :=
  forall_ascii (p := fun c ↦ c.isAlphanum = true →
    c.toLower.isLower = c.isAlpha ∧ c.toLower.isDigit = c.isDigit ∧ isSmall c.toLower = true)
    (by decide +kernel) (toNat_of_isAlphanum hc) hc

theorem IsJoined.of_append {s t : List Char} (h : IsJoined (s ++ t)) : IsJoined t := by
  induction s with
  | nil => exact h
  | cons c s ih => exact ih h.2

theorem isJoined_append {s t : List Char} (hs : ∀ c ∈ s, c.isAlphanum = true) (ht : IsJoined t) :
    IsJoined (s ++ t) := by
  induction s with
  | nil => exact ht
  | cons c s ih =>
    obtain ⟨hc, hs⟩ := List.forall_mem_cons.mp hs
    exact ⟨.inl hc, ih hs⟩

/-- Nothing that may come behind an underscore begins with an acronym. -/
theorem IsAcronym.begins_append {acronym : List Char} (h : IsAcronym acronym) (s : List Char) :
    begins Char.isLower (acronym ++ s) = false ∧ (acronym ++ s).head?.any Char.isLower = false := by
  cases acronym with
  | nil => exact absurd h.1 (by decide)
  | cons c rest =>
    rcases Bool.or_eq_true_iff.mp h.1 with hupper | hsecond
    · obtain ⟨hlower, hdigit⟩ := kind_of_isUpper hupper
      exact ⟨by simp [begins, hlower, hdigit], hlower⟩
    · obtain ⟨hdigit, hnext⟩ := Bool.and_eq_true_iff.mp hsecond
      cases rest with
      | nil => exact absurd hnext (by decide)
      | cons d rest =>
        have hnext : d.isLower = false := (kind_of_isUpper hnext).1
        exact ⟨by simp [begins, isLower_of_isDigit hdigit, hnext], isLower_of_isDigit hdigit⟩

/-- A segment begins with a small letter, or with a digit and one. -/
theorem IsAcronym.begins_map {acronym : List Char} (h : IsAcronym acronym) (s : List Char) :
    begins Char.isLower (acronym.map Char.toLower ++ s) = true := by
  have hcapital : ∀ c : Char, c.isUpper = true → c.toLower.isLower = true := fun c hc ↦
    (toLower_of_isAlphanum (isAlphanum_of_isUpper hc)).1.trans (Bool.or_eq_true_iff.mpr (.inl hc))
  cases acronym with
  | nil => exact absurd h.1 (by decide)
  | cons c rest =>
    rcases Bool.or_eq_true_iff.mp h.1 with hupper | hsecond
    · simp [begins, hcapital c hupper]
    · obtain ⟨hdigit, hnext⟩ := Bool.and_eq_true_iff.mp hsecond
      cases rest with
      | nil => exact absurd hnext (by decide)
      | cons d rest =>
        have hfirst := (toLower_of_isAlphanum (isAlphanum_of_isDigit hdigit)).2.1.trans hdigit
        simp [begins, hfirst, hcapital d hnext]

theorem IsAcronym.ne_nil {acronym : List Char} (h : IsAcronym acronym) : acronym ≠ [] := by
  rintro rfl
  exact absurd h.1 (by decide)

/-- What is joined stays joined when an acronym is replaced, and what comes behind an underscore is
not touched at its beginning. -/
theorem IsAcronym.replace {acronym : List Char} (hacronym : IsAcronym acronym) (s : List Char) :
    (IsJoined s → IsJoined (replaceAll acronym (segment acronym) s)) ∧
      (begins Char.isLower s = true →
        begins Char.isLower (replaceAll acronym (segment acronym) s) = true) ∧
      (s.head?.any Char.isLower = true →
        (replaceAll acronym (segment acronym) s).head?.any Char.isLower = true) := by
  refine replaceAll_induction (motive := fun s t ↦ (IsJoined s → IsJoined t) ∧
    (begins Char.isLower s = true → begins Char.isLower t = true) ∧
    (s.head?.any Char.isLower = true → t.head?.any Char.isLower = true)) hacronym.ne_nil
    ⟨id, id, id⟩ (fun s t ih ↦ ?_) (fun c s t ih ↦ ?_) s
  · obtain ⟨hbegins, hhead⟩ := hacronym.begins_append s
    refine ⟨fun h ↦ ⟨.inr ⟨rfl, hacronym.begins_map t⟩, isJoined_append ?_ (ih.1 h.of_append)⟩,
      fun h ↦ absurd (hbegins.symm.trans h) (by decide),
      fun h ↦ absurd (hhead.symm.trans h) (by decide)⟩
    intro c hc
    obtain ⟨d, hd, rfl⟩ := List.mem_map.mp hc
    exact isAlphanum_of_isSmall (toLower_of_isAlphanum (List.all_eq_true.mp hacronym.2 d hd)).2.2
  · refine ⟨fun h ↦ ⟨h.1.imp_right (And.imp_right ih.2.1), ih.1 h.2⟩, fun h ↦ ?_, id⟩
    refine Bool.or_eq_true_iff.mpr ((Bool.or_eq_true_iff.mp h).imp_right fun h ↦ ?_)
    obtain ⟨hdigit, hnext⟩ := Bool.and_eq_true_iff.mp h
    exact Bool.and_eq_true_iff.mpr ⟨hdigit, ih.2.2 hnext⟩

/-- A letter, or an underscore and a small letter, in front of what acronyms are joined in. -/
def Fronted : List Char → Prop
  | [] => False
  | c :: s => c.isAlpha = true ∨ c = '_' ∧ s.head?.any Char.isLower = true

theorem Fronted.replace {acronym s : List Char} (hacronym : IsAcronym acronym) (hs : Fronted s) :
    Fronted (replaceAll acronym (segment acronym) s) := by
  by_cases hfound : acronym <+: s
  · obtain ⟨rest, rfl⟩ := hfound
    rw [replaceAll_append hacronym.ne_nil]
    obtain ⟨c, later, rfl⟩ := List.exists_cons_of_ne_nil hacronym.ne_nil
    have hc : c.isAlphanum = true := List.all_eq_true.mp hacronym.2 c List.mem_cons_self
    have halpha : c.isAlpha = true := by
      refine hs.resolve_right fun hunderscore ↦ ?_
      rw [hunderscore.1] at hc
      exact absurd hc (by decide)
    exact .inr ⟨rfl, (toLower_of_isAlphanum hc).1.trans halpha⟩
  · cases s with
    | nil => exact hs
    | cons c s =>
      rw [replaceAll_cons hfound]
      exact hs.imp_right (And.imp_right (hacronym.replace s).2.2)

theorem joined_joinAcronymsOf {table : List (List Char)}
    (htable : ∀ acronym ∈ table, IsAcronym acronym) {s : List Char} (hs : IsJoined s)
    (hfront : Fronted s) :
    IsJoined (joinAcronymsOf table s) ∧ Fronted (joinAcronymsOf table s) := by
  induction table generalizing s with
  | nil => exact ⟨hs, hfront⟩
  | cons acronym table ih =>
    obtain ⟨hacronym, htable⟩ := List.forall_mem_cons.mp htable
    exact ih htable ((hacronym.replace s).1 hs) (hfront.replace hacronym)

/-! ### Separated capitals -/

theorem separated_of_isSmall {c : Char} (hc : isSmall c = true) : separated c = [c] := by
  refine if_neg fun hupper ↦ ?_
  obtain ⟨hlower, hdigit⟩ := kind_of_isUpper hupper
  rw [isSmall, hlower, hdigit] at hc
  exact absurd hc (by decide)

/-- A small letter or a digit is its own lower case. -/
theorem toLower_of_isSmall {c : Char} (hc : isSmall c = true) : c.toLower = c :=
  forall_ascii (p := fun c ↦ isSmall c = true → c.toLower = c) (by decide +kernel)
    (toNat_of_isAlphanum (isAlphanum_of_isSmall hc)) hc

/-- A capital takes the only underscore of the place where it stands: behind the underscores of
joined acronyms there is none. -/
theorem IsJoined.isSegmented {s : List Char} (hs : IsJoined s) :
    IsSegmented ((s.flatMap separated).map Char.toLower) := by
  induction s with
  | nil => trivial
  | cons c s ih =>
    have htail := ih hs.2
    rw [List.flatMap_cons, List.map_append]
    rcases hs.1 with hc | ⟨rfl, hbegins⟩
    · have hsmall := (toLower_of_isAlphanum hc).2.2
      unfold separated
      split_ifs
      · exact ⟨.inr ⟨rfl, hsmall⟩, .inl hsmall, htail⟩
      · exact ⟨.inl hsmall, htail⟩
    · refine ⟨.inr ⟨rfl, ?_⟩, htail⟩
      cases s with
      | nil => exact nomatch hbegins
      | cons d s =>
        have hd : isSmall d = true := by
          refine Bool.or_eq_true_iff.mpr ((Bool.or_eq_true_iff.mp hbegins).imp_right fun h ↦ ?_)
          exact (Bool.and_eq_true_iff.mp h).1
        rw [List.flatMap_cons, separated_of_isSmall hd, List.singleton_append, List.map_cons,
          toLower_of_isSmall hd]
        exact hd

/-! ### Whole names -/

theorem IsName.isJoined {s : List Char} (hs : IsName s) : IsJoined s ∧ Fronted s := by
  cases s with
  | nil => exact hs.elim
  | cons c s =>
    have hall : ∀ d ∈ c :: s, d.isAlphanum = true := by
      refine List.forall_mem_cons.mpr ⟨?_, List.all_eq_true.mp hs.2⟩
      rw [Char.isAlphanum, hs.1, Bool.true_or]
    refine ⟨?_, .inl hs.1⟩
    rw [← List.append_nil (c :: s)]
    exact isJoined_append hall trivial

theorem IsName.word {s : List Char} (hs : IsName s) : Word s := by
  cases s with
  | nil => exact hs.elim
  | cons c s =>
    have hword : ∀ d : Char, d.isAlphanum = true → isWordChar d = true := fun d hd ↦ by
      rw [isWordChar, hd, Bool.true_or]
    refine .intro (List.cons_ne_nil c s) (List.forall_mem_cons.mpr ⟨hword c ?_, fun d hd ↦ ?_⟩)
    · rw [Char.isAlphanum, hs.1, Bool.true_or]
    · exact hword d (List.all_eq_true.mp hs.2 d hd)

/-- A name in snake case is a small letter, in front of it an underscore or none, and segments. -/
theorem snake_eq {s : List Char} (hs : IsName s) : ∃ lead first rest,
    (lead = [] ∨ lead = ['_']) ∧ first.isLower = true ∧ IsSegmented rest ∧
      snake s = lead ++ first :: rest := by
  have hascii := (hs.word.joinAcronymsOf word_of_mem_acronyms).separateCapitals.toNat_lt
  have hjoined := joined_joinAcronymsOf isAcronym_of_mem hs.isJoined.1 hs.isJoined.2
  rw [snake, joinAcronyms, lowercase_of_ascii hascii]
  generalize joinAcronymsOf acronyms s = joined at hjoined
  cases joined with
  | nil => exact hjoined.2.elim
  | cons c t =>
    obtain ⟨⟨-, ht⟩, hfront⟩ := hjoined
    rw [separateCapitals, List.map_cons]
    rcases hfront with halpha | ⟨rfl, hnext⟩
    · have hc : c.isAlphanum = true := by rw [Char.isAlphanum, halpha, Bool.true_or]
      exact ⟨[], _, _, .inl rfl, (toLower_of_isAlphanum hc).1.trans halpha, ht.isSegmented, rfl⟩
    · cases t with
      | nil => exact absurd hnext (by decide)
      | cons d t =>
        have hd : isSmall d = true := Bool.or_eq_true_iff.mpr (.inl hnext)
        refine ⟨['_'], d, _, .inr rfl, hnext, ht.2.isSegmented, ?_⟩
        rw [List.flatMap_cons, separated_of_isSmall hd, List.singleton_append, List.map_cons,
          toLower_of_isSmall hd]
        rfl

/-- A name of letters and digits becomes segments of small letters and digits, of which the first
begins with a letter, with single underscores between them and at most one in front. -/
theorem snakeCase_segments {name : String} (hname : IsName name.toList) :
    (snakeCase name).toList ∈ snakeShape.matches' ∧
      (∀ c ∈ (snakeCase name).toList, c.isLower = true ∨ c.isDigit = true ∨ c = '_') ∧
      ¬ ['_', '_'] <:+: (snakeCase name).toList ∧ (snakeCase name).toList.getLast? ≠ some '_' := by
  obtain ⟨lead, first, rest, hlead, hfirst, hrest, heq⟩ := snake_eq hname
  have hsmall : isSmall first = true := Bool.or_eq_true_iff.mpr (.inl hfirst)
  have hsegmented : IsSegmented (lead ++ first :: rest) := by
    rcases hlead with rfl | rfl
    · exact ⟨.inl hsmall, hrest⟩
    · exact ⟨.inr ⟨rfl, hsmall⟩, .inl hsmall, hrest⟩
  have hmatches : lead ∈ (1 + RegularExpression.char '_').matches' := by
    rw [RegularExpression.matches'_add]
    exact hlead
  obtain ⟨later, segments, hlater, hsegments, rfl⟩ := hrest.exists_segments
  rw [snakeCase, String.toList_ofList, heq]
  refine ⟨?_, fun c hc ↦ ?_, hsegmented.not_infix, hsegmented.getLast?_ne⟩
  · exact Language.append_mem_mul hmatches (Language.append_mem_mul
      (mem_oneOf (mem_smallLetters hfirst)) (Language.append_mem_mul hlater hsegments))
  · rw [← or_assoc, ← Bool.or_eq_true_iff]
    exact hsegmented.isSmall_or_eq c hc

/-- Acronyms in front, next to each other, next to capitals and with digits in common. -/
theorem snakeCase_segments_acronyms : IsName "FPSDPIXCRC32DNNPatch".toList ∧
    snakeCase "FPSDPIXCRC32DNNPatch" = "_fps_dpi_x_c_r_c3_2d_nn_patch" ∧
      "_fps_dpi_x_c_r_c3_2d_nn_patch".toList ∈ snakeShape.matches' := by
  have hname : IsName "FPSDPIXCRC32DNNPatch".toList := by decide
  have heq : snakeCase "FPSDPIXCRC32DNNPatch" = "_fps_dpi_x_c_r_c3_2d_nn_patch" := by
    decide +kernel
  exact ⟨hname, heq, heq ▸ (snakeCase_segments hname).1⟩

end Bindery.Identifier
