import Bindery.Binding
import Bindery.Proofs.Identifier.Word
import Bindery.Proofs.Traversal

/-!
# The texts of C types

`Spells` says which texts are those of a C type: words with blanks between them, then pointer marks
and sizes in brackets, with blanks anywhere around them (`Suffix`); a leading `const` needs a word
behind it. `CType.ofText` accepts exactly these texts, and gives the parts that were written
(`ofText_eq_ok_iff_spells`).
-/

set_option autoImplicit false
set_option relaxedAutoImplicit false

namespace Bindery.CType

open Text Identifier Traversal

/-- The word that makes a type constant. -/
def constWord : List Char := ['c', 'o', 'n', 's', 't']

/-- What stands behind the words of a type: pointer marks and then sizes in brackets, with any
blanks in front of each of them, inside the brackets and at the end. -/
inductive Suffix : Nat → List (List Char) → List Char → Prop
  | blanks {s : List Char} (hs : Blanks s) : Suffix 0 [] s
  | mark {pointers : Nat} {sizes : List (List Char)} {gap s : List Char} (hgap : Blanks gap)
      (hrest : Suffix pointers sizes s) : Suffix (pointers + 1) sizes (gap ++ '*' :: s)
  | size {size gap before after s : List Char} {sizes : List (List Char)} (hgap : Blanks gap)
      (hbefore : Blanks before) (hsize : Word size) (hafter : Blanks after)
      (hrest : Suffix 0 sizes s) :
      Suffix 0 (size :: sizes) (gap ++ '[' :: (before ++ size ++ after ++ ']' :: s))

/-- A text spells a type with the given words, number of pointer marks and sizes. -/
structure Spells (text : List Char) (words : List (List Char)) (pointers : Nat)
    (sizes : List (List Char)) : Prop where
  word_of_mem : ∀ w ∈ words, Word w
  two_le_of_const : words.head? = some constWord → 2 ≤ words.length
  exists_split : ∃ before body rest, Blanks before ∧ Spaced words body ∧
    Suffix pointers sizes rest ∧ text = before ++ body ++ rest

/-- The words of a type without a leading `const`. -/
def baseWords (words : List (List Char)) : List (List Char) :=
  if words.head? = some constWord then words.tail else words

/-- The type with the given words, number of pointer marks and sizes. -/
def ofParts (words : List (List Char)) (pointers : Nat) (sizes : List (List Char)) : CType where
  base := " ".intercalate ((baseWords words).map String.ofList)
  isConst := words.head? = some constWord
  pointers := pointers
  dimensions := sizes.map String.ofList

/-! ### Words -/

theorem word_constWord : Word constWord := ⟨by decide, by decide⟩

theorem ofList_joinWith (ws : List (List Char)) :
    String.ofList (joinWith [' '] ws) = " ".intercalate (ws.map String.ofList) := by
  rw [← String.toList_inj, String.toList_ofList, String.toList_intercalate, List.map_map]
  induction ws with
  | nil => rfl
  | cons w ws ih =>
    cases ws with
    | nil => simp [joinWith]
    | cons v ws =>
      rw [joinWith, ih]
      simp [List.intercalate_cons_cons]

theorem word_of_mem_baseWords {ws : List (List Char)} (hws : ∀ w ∈ ws, Word w) :
    ∀ w ∈ baseWords ws, Word w := by
  intro w hw
  unfold baseWords at hw
  split_ifs at hw
  · exact hws w (List.mem_of_mem_tail hw)
  · exact hws w hw

theorem parseBase_eq_ok_iff {s : List Char} (hs : trim s = s) {base : String} :
    parseBase s = .ok base ↔ words s ≠ [] ∧ (∀ w ∈ words s, isWord w = true) ∧
      base = " ".intercalate ((words s).map String.ofList) := by
  have hempty : s.isEmpty = true ↔ words s = [] := by
    rw [List.isEmpty_iff, words_eq_nil_iff]
    refine ⟨fun h ↦ h ▸ Blanks.nil, fun h ↦ ?_⟩
    rw [← hs, trim_of_blanks h]
  rw [parseBase]
  split_ifs with hnone
  · simp [hempty.mp hnone]
  · split
    · next word hfind =>
      have hmem := List.mem_of_find?_eq_some hfind
      have hflaw := List.find?_some hfind
      refine ⟨fun h ↦ (nomatch h), fun h ↦ ?_⟩
      rw [h.2.1 word hmem] at hflaw
      exact nomatch hflaw
    · next hfind =>
      rw [ofList_joinWith]
      constructor
      · intro h
        refine ⟨fun h ↦ hnone (hempty.mpr h), fun w hw ↦ ?_, (Except.ok.inj h).symm⟩
        simpa using List.find?_eq_none.mp hfind w hw
      · rintro ⟨-, -, rfl⟩
        rfl

/-- Taking a leading `const` off a text leaves the other words; without one, all words stay. -/
theorem exists_splitConst_trim (s : List Char) : ∃ base,
    splitConst (trim s) = (decide ((words s).head? = some constWord), base) ∧
      trim base = base ∧ words base = baseWords (words s) := by
  by_cases hconst : (words s).head? = some constWord
  · obtain ⟨rest, htrim, hrest⟩ := exists_append_of_head?_words hconst
    have hwords : words s = constWord :: words rest := by
      rw [← words_trim s, htrim, words_solid_append word_constWord.solid hrest]
    refine ⟨trim rest, ?_, trim_trim rest, ?_⟩
    · have hbreak : (rest.isEmpty || rest.head?.any isBlank) = true := by
        cases rest with
        | nil => rfl
        | cons c rest => simpa using hrest c rfl
      rw [htrim]
      simp [splitConst, constWord, hbreak, hconst]
    · rw [words_trim, baseWords, if_pos hconst, hwords, List.tail_cons]
  · refine ⟨trim s, ?_, trim_trim s, ?_⟩
    · unfold splitConst
      split
      · next rest htrim =>
        split_ifs with hbreak
        · have hrest : ∀ c ∈ rest.head?, isBlank c = true := by
            cases rest with
            | nil => exact fun c hc ↦ nomatch hc
            | cons c rest => simpa using hbreak
          have hwords := words_solid_append word_constWord.solid hrest
          rw [← words_trim s, htrim] at hconst
          exact absurd (congrArg List.head? hwords) hconst
        · simp [hconst]
      · simp [hconst]
    · rw [words_trim, baseWords, if_neg hconst]

/-! ### Pointer marks and sizes -/

theorem Suffix.append_left {pointers : Nat} {sizes : List (List Char)} {l s : List Char}
    (hl : Blanks l) (hs : Suffix pointers sizes s) : Suffix pointers sizes (l ++ s) := by
  cases hs with
  | blanks hs => exact .blanks (hl.append hs)
  | mark hgap hrest =>
    rw [← List.append_assoc]
    exact .mark (hl.append hgap) hrest
  | size hgap hbefore hsize hafter hrest =>
    rw [← List.append_assoc]
    exact .size (hl.append hgap) hbefore hsize hafter hrest

theorem Suffix.append_right {pointers : Nat} {sizes : List (List Char)} {s r : List Char}
    (hs : Suffix pointers sizes s) (hr : Blanks r) : Suffix pointers sizes (s ++ r) := by
  induction hs with
  | blanks hs => exact .blanks (hs.append hr)
  | mark hgap _ ih =>
    rw [List.append_assoc]
    exact .mark hgap ih
  | size hgap hbefore hsize hafter _ ih =>
    have h := Suffix.size hgap hbefore hsize hafter ih
    simpa using h

theorem Suffix.trimEnd {pointers : Nat} {sizes : List (List Char)} {s : List Char}
    (hs : Suffix pointers sizes s) : Suffix pointers sizes (trimEnd s) := by
  induction hs with
  | @blanks s hs =>
    have hnil : Text.trimEnd s = [] := trimEnd_append hs []
    rw [hnil]
    exact .blanks .nil
  | mark hgap _ ih =>
    rw [trimEnd_append_cons _ _ (by decide)]
    exact .mark hgap ih
  | @size size gap before after s sizes hgap hbefore hsize hafter _ ih =>
    have hsplit : gap ++ '[' :: (before ++ size ++ after ++ ']' :: s) =
        gap ++ '[' :: (before ++ size ++ after) ++ ']' :: s := by simp
    rw [hsplit, trimEnd_append_cons _ _ (by decide)]
    simpa using Suffix.size hgap hbefore hsize hafter ih

/-- Marks and blanks in front of sizes are a suffix with as many pointers as marks. -/
theorem Suffix.of_marks {sizes : List (List Char)} {marks s : List Char}
    (hmarks : ∀ c ∈ marks, c = '*' ∨ isBlank c = true) (hs : Suffix 0 sizes s) :
    Suffix (marks.count '*') sizes (marks ++ s) := by
  induction marks with
  | nil => exact hs
  | cons c marks ih =>
    have hrest := ih fun d hd ↦ hmarks d (List.mem_cons_of_mem c hd)
    rcases hmarks c List.mem_cons_self with rfl | hc
    · rw [List.count_cons_self]
      exact .mark .nil hrest
    · have hne : c ≠ '*' := by
        rintro rfl
        exact nomatch hc
      rw [List.count_cons_of_ne hne]
      exact hrest.append_left (l := [c]) (by simpa [Blanks] using hc)

/-- A suffix is marks and blanks up to the first bracket, and sizes from there on. -/
theorem Suffix.exists_marks {pointers : Nat} {sizes : List (List Char)} {s : List Char}
    (hs : Suffix pointers sizes s) : ∃ marks groups, s = marks ++ groups ∧
      (∀ c ∈ marks, c = '*' ∨ isBlank c = true) ∧ marks.count '*' = pointers ∧
      (∀ c ∈ groups.head?, c = '[') ∧ Suffix 0 sizes groups := by
  have hcount : ∀ gap, Blanks gap → gap.count '*' = 0 := fun gap hgap ↦
    List.count_eq_zero.mpr (hgap.notMem rfl)
  induction hs with
  | @blanks s hs =>
    exact ⟨s, [], by simp, fun c hc ↦ .inr (hs c hc), hcount s hs, by simp, .blanks .nil⟩
  | @mark pointers sizes gap s hgap _ ih =>
    obtain ⟨marks, groups, rfl, hmarks, hpointers, hhead, hgroups⟩ := ih
    refine ⟨gap ++ '*' :: marks, groups, by simp, ?_, ?_, hhead, hgroups⟩
    · intro c hc
      rcases List.mem_append.mp hc with hc | hc
      · exact .inr (hgap c hc)
      · exact (List.mem_cons.mp hc).elim .inl (hmarks c)
    · rw [List.count_append, List.count_cons_self, hcount gap hgap, hpointers, Nat.zero_add]
  | @size size gap before after s sizes hgap hbefore hsize hafter hrest _ =>
    exact ⟨gap, '[' :: (before ++ size ++ after ++ ']' :: s), rfl, fun c hc ↦ .inr (hgap c hc),
      hcount gap hgap, by simp, .size .nil hbefore hsize hafter hrest⟩

theorem parsePointers_eq_ok_iff {marks : List Char} {pointers : Nat} :
    parsePointers marks = .ok pointers ↔
      (∀ c ∈ marks, c = '*' ∨ isBlank c = true) ∧ pointers = marks.count '*' := by
  rw [parsePointers]
  split
  · next c hfind =>
    have hflaw := List.find?_some hfind
    refine ⟨fun h ↦ (nomatch h), fun h ↦ ?_⟩
    rcases h.1 c (List.mem_of_find?_eq_some hfind) with rfl | hblank
    · exact nomatch hflaw
    · simp [hblank] at hflaw
  · next hfind =>
    refine ⟨fun h ↦ ⟨fun c hc ↦ ?_, (Except.ok.inj h).symm⟩, fun h ↦ by rw [h.2]⟩
    have hgood := List.find?_eq_none.mp hfind c hc
    by_cases hstar : c = '*'
    · exact .inl hstar
    · exact .inr (by simpa [hstar] using hgood)

theorem checkDimension_eq_ok_iff {size : List Char} {dimension : String} :
    checkDimension size = .ok dimension ↔ Word size ∧ dimension = String.ofList size := by
  unfold checkDimension Word
  split_ifs with hempty hword
  · simp [List.isEmpty_iff.mp hempty]
  · have hne : size ≠ [] := fun h ↦ hempty (List.isEmpty_iff.mpr h)
    simp [hne, hword, eq_comm]
  · simp [hword]

/-- The dimensions that are read stand in the text. -/
theorem suffix_of_parseDimensions {fuel : Nat} {s : List Char} {dimensions : List String}
    (h : parseDimensions fuel s = .ok dimensions) :
    ∃ sizes, dimensions = sizes.map String.ofList ∧ Suffix 0 sizes s := by
  induction fuel generalizing s dimensions with
  | zero => exact nomatch h
  | succ fuel ih =>
    cases s with
    | nil => exact ⟨[], (Except.ok.inj h).symm, .blanks .nil⟩
    | cons c s =>
      rw [parseDimensions] at h
      split_ifs at h with hc
      subst hc
      split at h
      · exact nomatch h
      · next d rest hrest =>
        have hd : d = ']' := by
          have hhead := List.head?_dropWhile_not (fun c ↦ decide (c ≠ ']')) s
          rw [hrest] at hhead
          simpa using hhead
        have hsplit : s.takeWhile (fun c ↦ decide (c ≠ ']')) ++ d :: rest = s := by
          rw [← hrest, List.takeWhile_append_dropWhile]
        generalize s.takeWhile (fun c ↦ decide (c ≠ ']')) = inside at h hsplit
        obtain ⟨size, hsize, h⟩ := bind_eq_ok_iff.mp h
        obtain ⟨later, hlater, h⟩ := bind_eq_ok_iff.mp h
        obtain ⟨hword, rfl⟩ := checkDimension_eq_ok_iff.mp hsize
        obtain ⟨sizes, rfl, hsizes⟩ := ih hlater
        obtain ⟨before, after, hbefore, hafter, hinside⟩ := exists_trim inside
        obtain ⟨gap, hgap, hgapRest⟩ := exists_append_trimStart rest
        refine ⟨trim inside :: sizes, (Except.ok.inj h).symm, ?_⟩
        have hs : s = before ++ trim inside ++ after ++ ']' :: (gap ++ trimStart rest) := by
          rw [← hinside, ← hgapRest, ← hd, hsplit]
        rw [hs]
        exact .size .nil hbefore hword hafter (hsizes.append_left hgap)

/-- The sizes of a suffix without marks are read off it, given enough fuel. -/
theorem parseDimensions_of_suffix {pointers : Nat} {sizes : List (List Char)} {s : List Char}
    (hs : Suffix pointers sizes s) (hpointers : pointers = 0) {fuel : Nat}
    (hfuel : s.length < fuel) :
    parseDimensions fuel (trimStart s) = .ok (sizes.map String.ofList) := by
  induction hs generalizing fuel with
  | @blanks s hs =>
    have hnil : trimStart s = [] := by simpa [trimStart] using trimStart_append hs []
    obtain ⟨fuel, rfl⟩ := Nat.exists_eq_add_of_lt (Nat.zero_lt_of_lt hfuel)
    rw [hnil]
    rfl
  | mark => exact absurd hpointers (Nat.succ_ne_zero _)
  | @size size gap before after s sizes hgap hbefore hsize hafter _ ih =>
    obtain ⟨fuel, rfl⟩ := Nat.exists_eq_add_of_lt (Nat.zero_lt_of_lt hfuel)
    have hinside : ']' ∉ before ++ size ++ after := by
      rw [List.mem_append, List.mem_append]
      rintro ((h | h) | h)
      · exact hbefore.notMem rfl h
      · exact hsize.notMem rfl h
      · exact hafter.notMem rfl h
    have hclose : ∀ c ∈ (']' :: s).head?, c = ']' := by simp
    have htrim : trim (before ++ size ++ after) = size :=
      trim_append_append hbefore hafter
        (fun c hc ↦ hsize.solid.2 c (List.mem_of_mem_head? hc))
        (fun c hc ↦ hsize.solid.2 c (List.mem_of_mem_getLast? hc))
    have hshort : s.length < 0 + fuel := by
      simp only [List.length_append, List.length_cons] at hfuel
      omega
    have hlater := ih rfl hshort
    rw [trimStart_append hgap, trimStart_cons (by decide), parseDimensions, if_pos rfl,
      dropWhile_ne_append hinside hclose, takeWhile_ne_append hinside hclose, htrim,
      checkDimension_eq_ok_iff.mpr ⟨hsize, rfl⟩]
    exact bind_eq_ok_iff.mpr ⟨_, rfl, bind_eq_ok_iff.mpr ⟨_, hlater, rfl⟩⟩

/-! ### Whole types -/

theorem Suffix.word_of_mem {pointers : Nat} {sizes : List (List Char)} {s : List Char}
    (hs : Suffix pointers sizes s) : ∀ size ∈ sizes, Word size := by
  induction hs with
  | blanks => exact fun _ h ↦ nomatch h
  | mark _ _ ih => exact ih
  | size _ _ hsize _ _ ih =>
    intro other hother
    rcases List.mem_cons.mp hother with rfl | hother
    · exact hsize
    · exact ih other hother

theorem Spells.size_of_mem {text : List Char} {ws sizes : List (List Char)} {pointers : Nat}
    (h : Spells text ws pointers sizes) : ∀ size ∈ sizes, Word size := by
  obtain ⟨_, _, _, _, _, hrest, _⟩ := h.exists_split
  exact hrest.word_of_mem

/-- The steps of reading a type whose text is divided at the first bracket and at the first mark in
front of it. -/
theorem parseTrimmed_eq_ok_iff {s head groups body marks base : List Char} {isConst : Bool}
    {type : CType} (hhead : s.takeWhile (· ≠ '[') = head) (hgroups : s.dropWhile (· ≠ '[') = groups)
    (hbody : head.takeWhile (· ≠ '*') = body) (hmarks : head.dropWhile (· ≠ '*') = marks)
    (hconst : splitConst (trim body) = (isConst, base)) :
    parseTrimmed s = .ok type ↔ ∃ dimensions pointers text,
      parseDimensions (s.length + 1) groups = .ok dimensions ∧ head.contains ']' = false ∧
      parsePointers marks = .ok pointers ∧ parseBase base = .ok text ∧
      type = ⟨text, isConst, pointers, dimensions⟩ := by
  rw [parseTrimmed, hhead, hgroups, bind_eq_ok_iff]
  refine exists_congr fun dimensions ↦ ?_
  cases hclose : head.contains ']' with
  | true =>
    refine ⟨fun h ↦ (nomatch h.2), ?_⟩
    rintro ⟨_, _, _, h, _⟩
    exact nomatch h
  | false =>
    change _ ∧ (parsePointers (head.dropWhile _) >>= _) = _ ↔ _
    rw [hmarks, hbody, hconst, bind_eq_ok_iff]
    constructor
    · rintro ⟨hdimensions, pointers, hpointers, h⟩
      obtain ⟨text, htext, h⟩ := bind_eq_ok_iff.mp h
      exact ⟨pointers, text, hdimensions, rfl, hpointers, htext, (Except.ok.inj h).symm⟩
    · rintro ⟨pointers, text, hdimensions, -, hpointers, htext, rfl⟩
      exact ⟨hdimensions, pointers, hpointers, bind_eq_ok_iff.mpr ⟨text, htext, rfl⟩⟩

theorem parse_eq_ok_iff {text : String} {type : CType} :
    parse text = .ok type ↔ trim text.toList ≠ [] ∧ parseTrimmed (trim text.toList) = .ok type := by
  rw [parse]
  split_ifs with hempty
  · simp [List.isEmpty_iff.mp hempty]
  · have hne : trim text.toList ≠ [] := fun h ↦ hempty (List.isEmpty_iff.mpr h)
    simp [hne]

/-- A text that is read as a type spells it. -/
theorem exists_spells_of_parse {text : String} {type : CType} (h : parse text = .ok type) :
    ∃ words pointers sizes, Spells text.toList words pointers sizes ∧
      type = ofParts words pointers sizes := by
  obtain ⟨-, h⟩ := parse_eq_ok_iff.mp h
  obtain ⟨before, after, hbefore, hafter, htext⟩ := exists_trim text.toList
  generalize trim text.toList = s at h htext
  generalize hhead : s.takeWhile (· ≠ '[') = head at h
  generalize hgroups : s.dropWhile (· ≠ '[') = groups at h
  generalize hbody : head.takeWhile (· ≠ '*') = body at h
  generalize hmarks : head.dropWhile (· ≠ '*') = marks at h
  have hs : s = body ++ marks ++ groups := by
    rw [← hbody, ← hmarks, List.takeWhile_append_dropWhile, ← hhead, ← hgroups,
      List.takeWhile_append_dropWhile]
  obtain ⟨base, hconst, htrim, hwords⟩ := exists_splitConst_trim body
  obtain ⟨dimensions, pointers, baseText, hdimensions, -, hpointers, hbase, rfl⟩ :=
    (parseTrimmed_eq_ok_iff hhead hgroups hbody hmarks hconst).mp h
  obtain ⟨hstars, rfl⟩ := parsePointers_eq_ok_iff.mp hpointers
  obtain ⟨sizes, rfl, hsizes⟩ := suffix_of_parseDimensions hdimensions
  obtain ⟨hne, hword, rfl⟩ := (parseBase_eq_ok_iff htrim).mp hbase
  rw [hwords] at hne hword ⊢
  rcases exists_spaced_words body with hblank | ⟨l, inner, r, hl, hr, hsplit, hinner, hsolid⟩
  · rw [words_of_blanks hblank] at hne
    exact absurd rfl hne
  refine ⟨words body, marks.count '*', sizes, ⟨?_, ?_, ?_⟩, rfl⟩
  · intro w hw
    refine ⟨(hsolid w hw).1, ?_⟩
    by_cases hfirst : (words body).head? = some constWord
    · rcases List.mem_cons.mp (List.eq_cons_of_mem_head? hfirst ▸ hw) with rfl | htail
      · rfl
      · exact hword w (by rwa [baseWords, if_pos hfirst])
    · exact hword w (by rwa [baseWords, if_neg hfirst])
  · intro hfirst
    rw [baseWords, if_pos hfirst] at hne
    have hpos := List.length_pos_iff.mpr hne
    rw [List.length_tail] at hpos
    omega
  · refine ⟨before ++ l, inner, r ++ (marks ++ groups ++ after), hbefore.append hl, hinner, ?_, ?_⟩
    · exact ((Suffix.of_marks hstars hsizes).append_right hafter).append_left hr
    · rw [htext, hs, hsplit]
      simp

theorem notMem_of_spaced {ws : List (List Char)} {body : List Char} (hbody : Spaced ws body)
    (hws : ∀ w ∈ ws, Word w) {c : Char} (hword : isWordChar c = false)
    (hblank : isBlank c = false) : c ∉ body := by
  induction hbody with
  | word w => exact (hws w List.mem_cons_self).notMem hword
  | @cons w gap s ws _ hgap _ ih =>
    rw [List.mem_append, List.mem_append]
    rintro ((h | h) | h)
    · exact (hws w List.mem_cons_self).notMem hword h
    · exact Blanks.notMem hgap hblank h
    · exact ih (fun v hv ↦ hws v (List.mem_cons_of_mem w hv)) h

theorem exists_spells_of_ofText {text : String} {type : CType} (h : ofText text = .ok type) :
    ∃ words pointers sizes, Spells text.toList words pointers sizes ∧
      type = ofParts words pointers sizes := by
  unfold ofText at h
  cases hparse : parse text with
  | error flaw =>
    rw [hparse] at h
    exact nomatch h
  | ok read =>
    rw [hparse] at h
    obtain rfl := Except.ok.inj h
    exact exists_spells_of_parse hparse

/-- Reading a text that is divided into words, blanks, marks and sizes. -/
theorem parseTrimmed_of_parts {ws sizes : List (List Char)} {body gap marks groups : List Char}
    (hws : ∀ w ∈ ws, Word w) (hconst : ws.head? = some constWord → 2 ≤ ws.length)
    (hbody : Spaced ws body) (hgap : Blanks gap) (hmarks : ∀ c ∈ marks, c = '*' ∨ isBlank c = true)
    (hstar : ∀ c ∈ marks.head?, c = '*') (hgroups : Suffix 0 sizes groups)
    (hopen : ∀ c ∈ groups.head?, c = '[') :
    parseTrimmed (body ++ gap ++ marks ++ groups) =
      .ok (ofParts ws (marks.count '*') sizes) := by
  have hlead : ∀ c, isWordChar c = false → isBlank c = false → c ∉ body ++ gap := by
    intro c hword hblank
    rw [List.mem_append, not_or]
    exact ⟨notMem_of_spaced hbody hws hword hblank, hgap.notMem hblank⟩
  have hhead : ∀ c, c ≠ '*' → isWordChar c = false → isBlank c = false →
      c ∉ body ++ gap ++ marks := by
    intro c hne hword hblank
    rw [List.mem_append, not_or]
    refine ⟨hlead c hword hblank, fun hc ↦ (hmarks c hc).elim hne fun h ↦ ?_⟩
    exact absurd (h.symm.trans hblank) (by decide)
  have hbracket := hhead '[' (by decide) rfl rfl
  have hmark := hlead '*' rfl rfl
  have hwords : words (body ++ gap) = ws := by
    rw [words_append_right hgap, words_of_spaced hbody fun w hw ↦ (hws w hw).solid]
  have hne : ws ≠ [] := by
    rintro rfl
    exact nomatch hbody
  obtain ⟨base, hsplit, htrim, hbase⟩ := exists_splitConst_trim (body ++ gap)
  rw [hwords] at hsplit hbase
  refine (parseTrimmed_eq_ok_iff
    (takeWhile_ne_append hbracket hopen) (dropWhile_ne_append hbracket hopen)
    (takeWhile_ne_append hmark hstar) (dropWhile_ne_append hmark hstar) hsplit).mpr ?_
  refine ⟨sizes.map String.ofList, marks.count '*', _, ?_, ?_,
    parsePointers_eq_ok_iff.mpr ⟨hmarks, rfl⟩, (parseBase_eq_ok_iff htrim).mpr ⟨?_, ?_, rfl⟩, ?_⟩
  · have hstart : trimStart groups = groups := by
      refine trimStart_of_head? fun c hc ↦ ?_
      rw [hopen c hc]
      rfl
    have hfuel : groups.length < (body ++ gap ++ marks ++ groups).length + 1 := by
      rw [List.length_append]
      omega
    have hdimensions := parseDimensions_of_suffix hgroups rfl hfuel
    rwa [hstart] at hdimensions
  · simpa using hhead ']' (by decide) rfl rfl
  · rw [hbase, baseWords]
    split_ifs with hfirst
    · refine List.length_pos_iff.mp ?_
      have htwo := hconst hfirst
      rw [List.length_tail]
      omega
    · exact hne
  · rw [hbase]
    exact fun w hw ↦ (word_of_mem_baseWords hws w hw).2
  · rw [hbase]
    rfl

/-- A text that spells a type is read as that type. -/
theorem parse_of_spells {text : String} {ws : List (List Char)} {pointers : Nat}
    {sizes : List (List Char)} (h : Spells text.toList ws pointers sizes) :
    parse text = .ok (ofParts ws pointers sizes) := by
  obtain ⟨before, body, rest, hbefore, hbody, hrest, htext⟩ := h.exists_split
  have hsolid : ∀ w ∈ ws, Solid w := fun w hw ↦ (h.word_of_mem w hw).solid
  have htrim : trim text.toList = body ++ trimEnd rest := by
    rw [htext, trim_append_spaced_append hbefore hbody hsolid]
  obtain ⟨marks, groups, hsplit, hmarks, hcount, hopen, hgroups⟩ := hrest.trimEnd.exists_marks
  obtain ⟨gap, hgap, hmarksSplit⟩ := exists_append_trimStart marks
  -- the marks start at the first one that is no blank
  have hmem : ∀ c ∈ trimStart marks, c ∈ marks := by
    intro c hc
    rw [hmarksSplit]
    exact List.mem_append_right gap hc
  have hstar : ∀ c ∈ (trimStart marks).head?, c = '*' := by
    intro c hc
    have hhead := List.head?_dropWhile_not isBlank marks
    rw [← trimStart, Option.mem_def.mp hc] at hhead
    rcases hmarks c (hmem c (List.mem_of_mem_head? hc)) with h | h
    · exact h
    · exact absurd (h.symm.trans hhead) (by decide)
  have hstars : (trimStart marks).count '*' = pointers := by
    have hnone : gap.count '*' = 0 := List.count_eq_zero.mpr (hgap.notMem rfl)
    rw [← hcount, hmarksSplit, List.count_append, hnone, Nat.zero_add, ← hmarksSplit]
  have hwhole : trim text.toList = body ++ gap ++ trimStart marks ++ groups := by
    rw [htrim, hsplit, List.append_assoc body, ← hmarksSplit, List.append_assoc]
  refine parse_eq_ok_iff.mpr ⟨?_, ?_⟩
  · obtain ⟨c, t, hfirst, -⟩ := hbody.exists_cons hsolid
    rw [htrim, hfirst]
    exact List.cons_ne_nil _ _
  · rw [hwhole, ← hstars]
    exact parseTrimmed_of_parts h.word_of_mem h.two_le_of_const hbody hgap
      (fun c hc ↦ hmarks c (hmem c hc)) hstar hgroups hopen

/-- The texts of C types are exactly the ones that are spelled as such, and what is read is what was
written; every other text is reported as it stands. -/
theorem ofText_eq_ok_iff_spells (text : String) :
    (∀ type, ofText text = .ok type ↔ ∃ words pointers sizes,
      Spells text.toList words pointers sizes ∧ type = ofParts words pointers sizes) ∧
    ((∃ reason, ofText text = .error (.malformedType text reason)) ↔
      ¬ ∃ words pointers sizes, Spells text.toList words pointers sizes) := by
  have hspells : ∀ type, ofText text = .ok type ↔ ∃ words pointers sizes,
      Spells text.toList words pointers sizes ∧ type = ofParts words pointers sizes := by
    intro type
    refine ⟨exists_spells_of_ofText, ?_⟩
    rintro ⟨words, pointers, sizes, h, rfl⟩
    rw [ofText, parse_of_spells h]
    rfl
  refine ⟨hspells, ?_, ?_⟩
  · rintro ⟨reason, herror⟩ ⟨words, pointers, sizes, h⟩
    have hok := (hspells _).mpr ⟨words, pointers, sizes, h, rfl⟩
    rw [herror] at hok
    exact nomatch hok
  · intro hnone
    cases hparse : parse text with
    | error flaw => exact ⟨flaw.message, by rw [ofText, hparse]; rfl⟩
    | ok type =>
      obtain ⟨words, pointers, sizes, h, -⟩ := exists_spells_of_parse hparse
      exact absurd ⟨words, pointers, sizes, h⟩ hnone

example : ofText " const unsigned  int* [ MAX ]" = .ok ⟨"unsigned int", true, 1, ["MAX"]⟩ := by
  decide +kernel

end Bindery.CType
