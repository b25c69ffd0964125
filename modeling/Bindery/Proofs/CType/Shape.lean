import Bindery.Proofs.CType.Target
import Bindery.Proofs.Text.Pieces

/-!
# The shape of a type

A type in the bindings is written as its dimensions, its pointer marks and the name of an element
type (`HasElement`), and the counts of both can be read off it (`count_bracket_target`,
`count_mark_target`). The name of `void` is empty, which is right for a return type and for an
untyped pointer, which has a name of its own; but pointers to such pointers and arrays of them end
in a mark or a bracket, with no element type at all. `mapText_hasElement_iff` says which types have
one.
-/

set_option autoImplicit false
set_option relaxedAutoImplicit false

namespace Bindery.CType

open Text Identifier Traversal

/-- What the parts of a type are made of that is read from a text. -/
structure WellFormed (type : CType) : Prop where
  starts : type.base.toList.head?.any isWordChar = true
  base : ∀ c ∈ type.base.toList, isWordChar c = true ∨ c = ' '
  dimension : ∀ size ∈ type.dimensions, Word size.toList

/-- No value at all: `void` without pointers and dimensions. -/
def IsNothing (type : CType) : Prop :=
  type.base = "void" ∧ type.pointers = 0 ∧ type.dimensions = []

instance (type : CType) : Decidable type.IsNothing :=
  inferInstanceAs (Decidable (type.base = "void" ∧ type.pointers = 0 ∧ type.dimensions = []))

/-- The characters of dimensions and pointers. -/
def shapeMarks : List Char := ['[', ']', '&']

/-- The name of an element type, which starts like a word and has no marks of dimensions or
pointers. -/
def IsName (name : String) : Prop :=
  name.toList.head?.any isWordChar = true ∧ ∀ c ∈ name.toList, c ∉ shapeMarks

instance : DecidablePred IsName := fun name ↦
  decidable_of_iff (name.toList.head?.any isWordChar = true ∧
    (name.toList.all fun c ↦ !shapeMarks.contains c) = true) (by simp [IsName])

/-- A number of pointer marks. -/
def pointerMarks (pointers : Nat) : String := String.ofList (List.replicate pointers '&')

/-- A written type names an element type behind its dimensions and pointer marks. -/
def HasElement (target : String) : Prop :=
  ∃ sizes pointers name, IsName name ∧ target = bracketed sizes ++ pointerMarks pointers ++ name

/-- A written type ends where the name of its element type would start. -/
def EndsOpen (target : String) : Prop := ∃ c ∈ target.toList.getLast?, c = '&' ∨ c = ']'

/-! ### Types that are read -/

theorem head?_base {ws : List (List Char)} (hne : ws ≠ []) (hws : ∀ w ∈ ws, Word w) :
    (" ".intercalate (ws.map String.ofList)).toList.head?.any isWordChar = true := by
  obtain ⟨w, ws, rfl⟩ := List.exists_cons_of_ne_nil hne
  have hw := hws w List.mem_cons_self
  obtain ⟨c, w, rfl⟩ := List.exists_cons_of_ne_nil hw.1
  have hc := hw.isWordChar_of_mem List.mem_cons_self
  cases ws with
  | nil => simpa using hc
  | cons v ws =>
    rw [List.map_cons, List.map_cons, String.intercalate_cons_cons]
    simpa using hc

theorem mem_base {ws : List (List Char)} (hws : ∀ w ∈ ws, Word w) {c : Char}
    (hc : c ∈ (" ".intercalate (ws.map String.ofList)).toList) :
    isWordChar c = true ∨ c = ' ' := by
  by_contra hother
  rw [not_or] at hother
  refine absurd hc ?_
  rw [String.toList_intercalate, List.map_map]
  refine notMem_intercalate (by simpa using hother.2) fun piece hpiece ↦ ?_
  obtain ⟨w, hw, rfl⟩ := List.mem_map.mp hpiece
  rw [Function.comp_apply, String.toList_ofList]
  exact (hws w hw).notMem (by simpa using hother.1)

theorem baseWords_ne_nil {text : List Char} {words sizes : List (List Char)} {pointers : Nat}
    (h : Spells text words pointers sizes) : baseWords words ≠ [] := by
  obtain ⟨_, _, _, _, hbody, _, _⟩ := h.exists_split
  have hne : words ≠ [] := by
    rintro rfl
    exact nomatch hbody
  unfold baseWords
  split_ifs with hconst
  · have htwo := h.two_le_of_const hconst
    refine List.length_pos_iff.mp ?_
    rw [List.length_tail]
    omega
  · exact hne

theorem wellFormed_of_ofText {text : String} {type : CType} (h : ofText text = .ok type) :
    type.WellFormed := by
  obtain ⟨words, pointers, sizes, hspells, rfl⟩ := exists_spells_of_ofText h
  have hwords := word_of_mem_baseWords hspells.word_of_mem
  refine ⟨head?_base (baseWords_ne_nil hspells) hwords, fun c ↦ mem_base hwords, ?_⟩
  intro size hsize
  obtain ⟨s, hs, rfl⟩ := List.mem_map.mp hsize
  rw [String.toList_ofList]
  exact hspells.size_of_mem s hs

theorem WellFormed.base_notMem {type : CType} (htype : type.WellFormed) {c : Char}
    (hword : isWordChar c = false) (hspace : c ≠ ' ') : c ∉ type.base.toList := by
  intro hc
  rcases htype.base c hc with h | h
  · exact absurd (h.symm.trans hword) (by decide)
  · exact hspace h

/-! ### The name of the element type -/

/-- A base type has a name from the table or keeps its own. -/
theorem baseName_cases (base : String) :
    (base, baseName base) ∈ baseNames ∨ baseNames.lookup base = none ∧ baseName base = base := by
  unfold baseName
  cases hfound : baseNames.lookup base with
  | none => exact .inr ⟨rfl, rfl⟩
  | some name => exact .inl (mem_of_lookup hfound)

/-- Only `void` has no name. -/
theorem isName_baseName {type : CType} (htype : type.WellFormed) (hvoid : type.base ≠ "void") :
    IsName (baseName type.base) := by
  have htable : ∀ entry ∈ baseNames, entry.1 ≠ "void" → IsName entry.2 := by decide
  rcases baseName_cases type.base with hentry | ⟨-, hsame⟩
  · have hname := htable _ hentry hvoid
    exact hname
  · rw [hsame]
    refine ⟨htype.starts, fun c hc hmark ↦ ?_⟩
    have hmarks : (shapeMarks.all fun c ↦ !isWordChar c && c ≠ ' ') = true := by decide
    have hother := List.all_eq_true.mp hmarks c hmark
    rw [Bool.and_eq_true, Bool.not_eq_true', decide_eq_true_eq] at hother
    exact htype.base_notMem hother.1 hother.2 hc

theorem notMem_baseName {type : CType} (htype : type.WellFormed) {c : Char} (hc : c ∈ shapeMarks) :
    c ∉ (baseName type.base).toList := by
  by_cases hvoid : type.base = "void"
  · rw [hvoid]
    exact List.not_mem_nil
  · exact fun hmem ↦ (isName_baseName htype hvoid).2 c hmem hc

/-! ### Dimensions and pointer marks -/

theorem target_eq {type : CType} (htype : type.isVoidPointer = false) :
    type.target =
      bracketed type.dimensions ++ pointerMarks type.pointers ++ baseName type.base := by
  rw [target, htype]
  rfl

theorem bracketed_cons (size : String) (sizes : List String) :
    bracketed (size :: sizes) = "[" ++ size ++ "]" ++ bracketed sizes := by
  rw [bracketed, List.map_cons, String.join_cons]
  rfl

theorem count_bracketed {sizes : List String} (hsizes : ∀ size ∈ sizes, Word size.toList) :
    (bracketed sizes).toList.count '[' = sizes.length ∧
      (bracketed sizes).toList.count '&' = 0 := by
  induction sizes with
  | nil => exact ⟨rfl, rfl⟩
  | cons size sizes ih =>
    obtain ⟨hopen, hmark⟩ := ih fun s hs ↦ hsizes s (List.mem_cons_of_mem size hs)
    have hsize := hsizes size List.mem_cons_self
    have hsizeOpen : size.toList.count '[' = 0 := List.count_eq_zero.mpr (hsize.notMem rfl)
    have hsizeMark : size.toList.count '&' = 0 := List.count_eq_zero.mpr (hsize.notMem rfl)
    rw [bracketed_cons]
    simp [List.count_append, hopen, hmark, hsizeOpen, hsizeMark]

theorem count_pointerMarks (pointers : Nat) :
    (pointerMarks pointers).toList.count '[' = 0 ∧
      (pointerMarks pointers).toList.count '&' = pointers := by
  rw [pointerMarks, String.toList_ofList]
  refine ⟨List.count_eq_zero.mpr fun hc ↦ ?_, List.count_replicate_self⟩
  exact absurd (List.eq_of_mem_replicate hc) (by decide)

/-- The number of dimensions can be read off a type. -/
theorem count_bracket_target {type : CType} (htype : type.WellFormed)
    (hpointer : type.isVoidPointer = false) :
    type.target.toList.count '[' = type.dimensions.length := by
  have hname := List.count_eq_zero.mpr (notMem_baseName htype (c := '[') (by decide))
  rw [target_eq hpointer, String.toList_append, String.toList_append, List.count_append,
    List.count_append, (count_bracketed htype.dimension).1, (count_pointerMarks _).1, hname,
    Nat.add_zero]

/-- The number of pointers can be read off a type. -/
theorem count_mark_target {type : CType} (htype : type.WellFormed)
    (hpointer : type.isVoidPointer = false) :
    type.target.toList.count '&' = type.pointers := by
  have hname := List.count_eq_zero.mpr (notMem_baseName htype (c := '&') (by decide))
  rw [target_eq hpointer, String.toList_append, String.toList_append, List.count_append,
    List.count_append, (count_bracketed htype.dimension).2, (count_pointerMarks _).2, hname,
    Nat.zero_add, Nat.add_zero]

/-- A type starts with a dimension, a pointer mark or its name. -/
theorem head?_target {type : CType} (htype : type.WellFormed) :
    ∀ c ∈ type.target.toList.head?, isWordChar c = true ∨ c ∈ shapeMarks := by
  cases hpointer : type.isVoidPointer with
  | true =>
    rw [target, if_pos hpointer]
    intro c hc
    have hfirst : c = 'v' := (Option.some.inj hc).symm
    rw [hfirst]
    exact .inl rfl
  | false =>
    rw [target_eq hpointer]
    rcases type.dimensions with _ | ⟨size, sizes⟩
    · rcases type.pointers with _ | pointers
      · by_cases hvoid : type.base = "void"
        · rw [hvoid]
          exact fun c hc ↦ nomatch hc
        · have hname := (isName_baseName htype hvoid).1
          intro c hc
          change c ∈ ("" ++ "" ++ baseName type.base).toList.head? at hc
          rw [String.append_empty, String.empty_append] at hc
          rw [Option.mem_def.mp hc] at hname
          exact .inl hname
      · intro c hc
        simp [bracketed, pointerMarks, List.replicate_succ] at hc
        rw [← hc]
        exact .inr (by decide)
    · intro c hc
      simp [bracketed_cons] at hc
      rw [← hc]
      exact .inr (by decide)

/-! ### Element types -/

theorem HasElement.ne_empty {target : String} (h : HasElement target) : target ≠ "" := by
  obtain ⟨sizes, pointers, name, hname, rfl⟩ := h
  intro hempty
  have hnone := congrArg String.toList hempty
  rw [String.toList_append] at hnone
  have hstarts := hname.1
  rw [(List.append_eq_nil_iff.mp hnone).2] at hstarts
  exact nomatch hstarts

theorem EndsOpen.ne_empty {target : String} (h : EndsOpen target) : target ≠ "" := by
  rintro rfl
  obtain ⟨c, hc, -⟩ := h
  exact nomatch hc

theorem HasElement.not_endsOpen {target : String} (h : HasElement target) : ¬ EndsOpen target := by
  obtain ⟨sizes, pointers, name, hname, rfl⟩ := h
  rintro ⟨c, hc, hopen⟩
  have hne : name.toList ≠ [] := by
    intro hnil
    have hstarts := hname.1
    rw [hnil] at hstarts
    exact nomatch hstarts
  rw [String.toList_append, List.getLast?_append_of_ne_nil _ hne] at hc
  have hmark : c ∈ shapeMarks := by
    rcases hopen with rfl | rfl
    · decide
    · decide
  exact hname.2 c (List.mem_of_mem_getLast? hc) hmark

/-- Dimensions and pointer marks alone are an open end. -/
theorem endsOpen_of_void {sizes : List String} {pointers : Nat}
    (hsome : ¬ (pointers = 0 ∧ sizes = [])) :
    EndsOpen (bracketed sizes ++ pointerMarks pointers) := by
  cases pointers with
  | succ pointers =>
    refine ⟨'&', ?_, .inl rfl⟩
    rw [pointerMarks, List.replicate_succ', String.toList_append, String.toList_ofList]
    simp
  | zero =>
    obtain ⟨sizes, size, rfl⟩ := (List.eq_nil_or_concat sizes).resolve_left fun h ↦ hsome ⟨rfl, h⟩
    have hlast : (bracketed (sizes.concat size) ++ pointerMarks 0).toList =
        (bracketed sizes ++ "[" ++ size).toList ++ [']'] := by
      simp [bracketed, pointerMarks, String.toList_join]
    exact ⟨']', by rw [hlast, List.getLast?_concat]; rfl, .inr rfl⟩

/-- What is read becomes nothing, a type with an element type, or an open end. -/
theorem target_cases {type : CType} (htype : type.WellFormed) :
    type.IsNothing ∧ type.target = "" ∨
      (type.base ≠ "void" ∨ type.isVoidPointer = true) ∧ HasElement type.target ∨
      (type.base = "void" ∧ type.isVoidPointer = false ∧ ¬ type.IsNothing) ∧
        EndsOpen type.target := by
  cases hpointer : type.isVoidPointer with
  | true =>
    refine .inr (.inl ⟨.inr rfl, [], 0, "voidptr", by decide, ?_⟩)
    rw [target, hpointer]
    rfl
  | false =>
    rw [target_eq hpointer]
    by_cases hvoid : type.base = "void"
    · have hname : baseName type.base = "" := by rw [hvoid]; rfl
      rw [hname, String.append_empty]
      by_cases hnone : type.pointers = 0 ∧ type.dimensions = []
      · refine .inl ⟨⟨hvoid, hnone⟩, ?_⟩
        rw [hnone.1, hnone.2]
        rfl
      · exact .inr (.inr ⟨⟨hvoid, rfl, fun h ↦ hnone h.2⟩, endsOpen_of_void hnone⟩)
    · exact .inr (.inl ⟨.inl hvoid, _, _, _, isName_baseName htype hvoid, rfl⟩)

theorem target_eq_empty_iff {type : CType} (htype : type.WellFormed) :
    type.target = "" ↔ type.IsNothing := by
  rcases target_cases htype with ⟨hnothing, htarget⟩ | ⟨hkind, helement⟩ | ⟨hkind, hopen⟩
  · exact iff_of_true htarget hnothing
  · refine iff_of_false helement.ne_empty ?_
    rintro ⟨hvoid, hpointers, -⟩
    rcases hkind with hbase | hpointer
    · exact hbase hvoid
    · simp [isVoidPointer, hpointers] at hpointer
  · exact iff_of_false hopen.ne_empty hkind.2.2

/-- Other texts than the variadic mark become what the type becomes that is read from them. -/
theorem mapText_eq_ok_iff {variadics : List (String × String)} {text target : String}
    {function : Option String} (htext : trim text.toList ≠ variadicMark) :
    mapText variadics text function = .ok target ↔
      ∃ type, ofText text = .ok type ∧ type.target = target := by
  rw [mapText, if_neg htext, map_eq_ok_iff]

/-- A type becomes one of three texts: none at all, if it stands for no value; dimensions and
pointer marks with an open end, if it is made of `void` in any other way than by one pointer; and
otherwise a type with an element type. -/
theorem mapText_hasElement_iff {variadics : List (String × String)} {text target : String}
    {function : Option String} (htext : trim text.toList ≠ variadicMark)
    (h : mapText variadics text function = .ok target) :
    ∃ type, ofText text = .ok type ∧ (target = "" ↔ type.IsNothing) ∧
      (HasElement target ↔ type.base ≠ "void" ∨ type.isVoidPointer = true) ∧
      (EndsOpen target ↔
        type.base = "void" ∧ type.isVoidPointer = false ∧ ¬ type.IsNothing) := by
  obtain ⟨type, htype, rfl⟩ := (mapText_eq_ok_iff htext).mp h
  have hwell := wellFormed_of_ofText htype
  refine ⟨type, htype, target_eq_empty_iff hwell, ?_⟩
  rcases target_cases hwell with ⟨hnothing, htarget⟩ | ⟨hkind, helement⟩ | ⟨hkind, hopen⟩
  · have hpointer : type.isVoidPointer = false := by simp [isVoidPointer, hnothing.2.1]
    refine ⟨iff_of_false (fun h ↦ h.ne_empty htarget) ?_,
      iff_of_false (fun h ↦ h.ne_empty htarget) fun h ↦ h.2.2 hnothing⟩
    simp [hnothing.1, hpointer]
  · refine ⟨iff_of_true helement hkind, iff_of_false helement.not_endsOpen ?_⟩
    rintro ⟨hvoid, hpointer, -⟩
    simp [hvoid, hpointer] at hkind
  · refine ⟨iff_of_false (fun h ↦ h.not_endsOpen hopen) ?_, iff_of_true hopen hkind⟩
    simp [hkind.1, hkind.2.1]

theorem mapText_hasElement_iff_floats :
    trim "const float *[4]".toList ≠ variadicMark ∧
      mapText [] "const float *[4]" none = .ok "[4]&f32" ∧ HasElement "[4]&f32" := by
  have htext : trim "const float *[4]".toList ≠ variadicMark := by decide
  have hmap : mapText [] "const float *[4]" none = .ok "[4]&f32" := rfl
  have htype : ofText "const float *[4]" = .ok ⟨"float", true, 1, ["4"]⟩ := rfl
  obtain ⟨type, hread, -, helement, -⟩ := mapText_hasElement_iff htext hmap
  cases htype.symm.trans hread
  exact ⟨htext, hmap, helement.mpr (.inl (by decide))⟩

/-- A pointer to an untyped pointer and an array of untyped pointers have no element type. -/
theorem mapText_void_pointers_endsOpen :
    mapText [] "void **" none = .ok "&&" ∧ EndsOpen "&&" ∧ ¬ HasElement "&&" ∧
      mapText [] "const void *[4]" none = .ok "[4]&" ∧ EndsOpen "[4]&" ∧ ¬ HasElement "[4]&" := by
  have hpointer : EndsOpen "&&" := ⟨'&', rfl, .inl rfl⟩
  have harray : EndsOpen "[4]&" := ⟨'&', rfl, .inl rfl⟩
  exact ⟨by decide, hpointer, fun h ↦ h.not_endsOpen hpointer, by decide, harray,
    fun h ↦ h.not_endsOpen harray⟩

end Bindery.CType
