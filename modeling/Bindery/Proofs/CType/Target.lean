import Bindery.Proofs.CType.Grammar

/-!
# What types become

The types that the bindings write consist of words and of a few marks (`TypeText`), whatever C type
they come from, as long as this holds of the types of variadic parameters (`typeText_of_mapText`).
-/

set_option autoImplicit false
set_option relaxedAutoImplicit false

namespace Bindery.CType

open Text Identifier Traversal

/-- The characters of types in the bindings that are in no word. -/
def marks : List Char := [' ', '[', ']', '&', '.']

/-- A text of words and the marks of types. -/
def TypeText (text : String) : Prop := ∀ c ∈ text.toList, isWordChar c = true ∨ c ∈ marks

instance : DecidablePred TypeText := fun text ↦
  decidable_of_iff (text.toList.all fun c ↦ isWordChar c || marks.contains c)
    (by simp [TypeText])

theorem TypeText.notMem {text : String} (htext : TypeText text) {c : Char}
    (hword : isWordChar c = false) (hmark : c ∉ marks) : c ∉ text.toList := by
  intro hc
  rcases htext c hc with h | h
  · exact ne_of_isWordChar h hword rfl
  · exact hmark h

theorem TypeText.newline_notMem {text : String} (htext : TypeText text) : '\n' ∉ text.toList :=
  htext.notMem rfl (by decide)

theorem TypeText.append {s t : String} (hs : TypeText s) (ht : TypeText t) : TypeText (s ++ t) := by
  intro c hc
  rw [String.toList_append, List.mem_append] at hc
  exact hc.elim (hs c) (ht c)

theorem typeText_of_word {text : String} (htext : Word text.toList) : TypeText text :=
  fun _ hc ↦ .inl (htext.isWordChar_of_mem hc)

theorem typeText_ofList {w : List Char} (hw : Word w) : TypeText (String.ofList w) :=
  typeText_of_word (by rwa [String.toList_ofList])

theorem typeText_space : TypeText " " := by decide

/-! ### The parts of a type -/

theorem mem_of_lookup {table : List (String × String)} {key value : String}
    (h : table.lookup key = some value) : (key, value) ∈ table := by
  obtain ⟨_, _, hsplit, -⟩ := List.lookup_eq_some_iff.mp h
  rw [hsplit]
  exact List.mem_append_right _ List.mem_cons_self

theorem typeText_base {ws : List (List Char)} (hws : ∀ w ∈ ws, Word w) :
    TypeText (" ".intercalate (ws.map String.ofList)) := by
  induction ws with
  | nil => exact fun c hc ↦ nomatch hc
  | cons w ws ih =>
    have hw := typeText_ofList (hws w List.mem_cons_self)
    have hrest := ih fun v hv ↦ hws v (List.mem_cons_of_mem w hv)
    cases ws with
    | nil => simpa using hw
    | cons v ws =>
      rw [List.map_cons, List.map_cons, String.intercalate_cons_cons]
      exact (hw.append typeText_space).append hrest

theorem typeText_bracketed {sizes : List (List Char)} (hsizes : ∀ size ∈ sizes, Word size) :
    TypeText (bracketed (sizes.map String.ofList)) := by
  intro c hc
  rw [bracketed, String.toList_join, List.mem_flatMap] at hc
  obtain ⟨group, hgroup, hc⟩ := hc
  rw [List.map_map] at hgroup
  obtain ⟨size, hsize, rfl⟩ := List.mem_map.mp hgroup
  have hbrackets : TypeText "[" ∧ TypeText "]" := by decide
  have hword := typeText_ofList (hsizes size hsize)
  exact ((hbrackets.1.append hword).append hbrackets.2) c hc

theorem typeText_baseName {base : String} (hbase : TypeText base) : TypeText (baseName base) := by
  have htable : ∀ entry ∈ baseNames, TypeText entry.2 := by decide +kernel
  unfold baseName
  cases hfound : baseNames.lookup base with
  | none => exact hbase
  | some name =>
    exact htable (base, name) (mem_of_lookup hfound)

theorem typeText_target {ws sizes : List (List Char)} {pointers : Nat} (hws : ∀ w ∈ ws, Word w)
    (hsizes : ∀ size ∈ sizes, Word size) : TypeText (ofParts ws pointers sizes).target := by
  unfold target
  split_ifs
  · decide
  · have hpointers : TypeText (String.ofList (List.replicate pointers '&')) := by
      intro c hc
      rw [String.toList_ofList] at hc
      rw [List.eq_of_mem_replicate hc]
      decide
    exact ((typeText_bracketed hsizes).append hpointers).append
      (typeText_baseName (typeText_base (word_of_mem_baseWords hws)))

/-! ### Types of C -/

theorem exists_mem_of_resolveVariadic {variadics : List (String × String)} {target : String}
    {function : Option String} (h : resolveVariadic variadics function = .ok target) :
    ∃ name, (name, target) ∈ variadics := by
  unfold resolveVariadic at h
  dsimp only at h
  split at h
  · next found hfound =>
    obtain rfl := Except.ok.inj h
    exact ⟨_, mem_of_lookup hfound⟩
  · exact nomatch h

theorem typeText_of_ofText {text : String} {type : CType} (h : ofText text = .ok type) :
    TypeText type.base ∧ TypeText type.target := by
  obtain ⟨words, pointers, sizes, hspells, rfl⟩ := exists_spells_of_ofText h
  exact ⟨typeText_base (word_of_mem_baseWords hspells.word_of_mem),
    typeText_target hspells.word_of_mem hspells.size_of_mem⟩

/-- What a type becomes in the bindings has no characters but those of words and the marks. -/
theorem typeText_of_mapText {variadics : List (String × String)} {text target : String}
    {function : Option String} (hvariadics : ∀ entry ∈ variadics, TypeText entry.2)
    (h : mapText variadics text function = .ok target) : TypeText target := by
  unfold mapText at h
  split_ifs at h
  · obtain ⟨name, hname⟩ := exists_mem_of_resolveVariadic h
    exact hvariadics _ hname
  · obtain ⟨type, htype, rfl⟩ := map_eq_ok_iff.mp h
    exact (typeText_of_ofText htype).2

end Bindery.CType
