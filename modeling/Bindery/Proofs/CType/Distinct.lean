import Bindery.Proofs.CType.Shape

/-!
# Types are told apart

The shape of a type can be read off what is written for it: the closing brackets divide it into its
dimensions and the rest (`splitOn_target`), which is as many marks as pointers and the name of the
base type. So texts of types become the same exactly if they have the same dimensions in the same
order, as many pointers, and base types of one name; `const`, blanks, the function and the table of
variadic types do not matter (`mapText_eq_iff_shape`). The untyped pointer is left out, because its
name has no shape.
-/

set_option autoImplicit false
set_option relaxedAutoImplicit false

namespace Bindery.CType

open Text Identifier Traversal

/-! ### Reading a shape off -/

theorem toList_bracketed (sizes : List String) : (bracketed sizes).toList =
    (sizes.map fun size ↦ '[' :: size.toList).flatMap fun group ↦ group ++ [']'] := by
  rw [bracketed, String.toList_join, List.flatMap_map, List.flatMap_map]
  simp

/-- The closing brackets of a written type end its dimensions. -/
theorem splitOn_target {type : CType} (htype : type.WellFormed)
    (hpointer : type.isVoidPointer = false) :
    type.target.toList.splitOn ']' = (type.dimensions.map fun size ↦ '[' :: size.toList) ++
      [(pointerMarks type.pointers ++ baseName type.base).toList] := by
  have hsizes : ∀ group ∈ type.dimensions.map fun size ↦ '[' :: size.toList, ']' ∉ group := by
    intro group hgroup
    obtain ⟨size, hsize, rfl⟩ := List.mem_map.mp hgroup
    rw [List.mem_cons, not_or]
    exact ⟨by decide, (htype.dimension size hsize).notMem rfl⟩
  have hlast : ']' ∉ (pointerMarks type.pointers ++ baseName type.base).toList := by
    rw [String.toList_append, List.mem_append, not_or, pointerMarks, String.toList_ofList]
    refine ⟨fun hc ↦ ?_, notMem_baseName htype (by decide)⟩
    exact absurd (List.eq_of_mem_replicate hc) (by decide)
  rw [target_eq hpointer, String.append_assoc, String.toList_append, toList_bracketed,
    splitOn_flatMap_ended_append hsizes hlast]

/-- Types that are written alike have one shape. -/
theorem target_inj {type other : CType} (htype : type.WellFormed) (hother : other.WellFormed)
    (hpointer : type.isVoidPointer = false) (hotherPointer : other.isVoidPointer = false)
    (h : type.target = other.target) :
    type.dimensions = other.dimensions ∧ type.pointers = other.pointers ∧
      baseName type.base = baseName other.base := by
  have hpieces := congrArg (fun target ↦ target.toList.splitOn ']') h
  simp only [splitOn_target htype hpointer, splitOn_target hother hotherPointer] at hpieces
  obtain ⟨hgroups, hlast⟩ := List.append_inj' hpieces rfl
  have hgroup : Function.Injective fun size : String ↦ '[' :: size.toList := fun s t hst ↦
    String.toList_injective (List.tail_eq_of_cons_eq hst)
  have hpointers : type.pointers = other.pointers := by
    rw [← count_mark_target htype hpointer, ← count_mark_target hother hotherPointer, h]
  have hname := String.toList_injective (List.head_eq_of_cons_eq hlast)
  rw [hpointers, String.append_right_inj] at hname
  exact ⟨List.map_injective_iff.mpr hgroup hgroups, hpointers, hname⟩

/-! ### Texts of types -/

/-- The variadic mark is the text of no type. -/
theorem trim_ne_variadicMark {text : String} {type : CType} (h : ofText text = .ok type) :
    trim text.toList ≠ variadicMark := by
  intro hmark
  obtain ⟨words, pointers, sizes, hspells, -⟩ := exists_spells_of_ofText h
  have hparse := (parse_eq_ok_iff.mp (parse_of_spells hspells)).2
  have herror : parseTrimmed variadicMark = .error (.invalidWord variadicMark) := rfl
  rw [hmark, herror] at hparse
  exact nomatch hparse

/-- Under every table and for every function, the text of a type becomes what the type does. -/
theorem mapText_of_ofText {text : String} {type : CType} (h : ofText text = .ok type)
    (variadics : List (String × String)) (function : Option String) :
    mapText variadics text function = .ok type.target :=
  (mapText_eq_ok_iff (trim_ne_variadicMark h)).mpr ⟨type, h, rfl⟩

/-- Texts of two types, neither of which is the untyped pointer, always become something, and they
become the same exactly if the types have one list of dimensions, one number of pointers, and base
types with one name. -/
theorem mapText_eq_iff_shape {text other : String} {type otherType : CType}
    (htype : ofText text = .ok type) (hother : ofText other = .ok otherType)
    (hpointer : type.isVoidPointer = false) (hotherPointer : otherType.isVoidPointer = false)
    (variadics otherVariadics : List (String × String)) (function otherFunction : Option String) :
    mapText variadics text function = .ok type.target ∧
      mapText otherVariadics other otherFunction = .ok otherType.target ∧
      (mapText variadics text function = mapText otherVariadics other otherFunction ↔
        type.dimensions = otherType.dimensions ∧ type.pointers = otherType.pointers ∧
          baseName type.base = baseName otherType.base) := by
  have htarget := mapText_of_ofText htype variadics function
  have hotherTarget := mapText_of_ofText hother otherVariadics otherFunction
  refine ⟨htarget, hotherTarget, ?_⟩
  rw [htarget, hotherTarget]
  constructor
  · intro heq
    exact target_inj (wellFormed_of_ofText htype) (wellFormed_of_ofText hother) hpointer
      hotherPointer (Except.ok.inj heq)
  · rintro ⟨hdimensions, hpointers, hname⟩
    rw [target_eq hpointer, target_eq hotherPointer, hdimensions, hpointers, hname]

/-- The order of the dimensions matters; blanks, `const` and the spelling of the base do not. -/
theorem mapText_eq_iff_shape_matrices :
    mapText [] "unsigned char[2][3]" none ≠
        mapText [] "unsigned char[3][2]" none ∧
      mapText [] "unsigned char[2][3]" none =
        mapText [("trace_log", "...any")] " const  char [ 2 ] [3] " (some "trace_log") := by
  have hbytes : ofText "unsigned char[2][3]" = .ok ⟨"unsigned char", false, 0, ["2", "3"]⟩ := rfl
  have hturned : ofText "unsigned char[3][2]" = .ok ⟨"unsigned char", false, 0, ["3", "2"]⟩ := rfl
  have hspaced : ofText " const  char [ 2 ] [3] " = .ok ⟨"char", true, 0, ["2", "3"]⟩ := rfl
  constructor
  · intro heq
    have hshape := (mapText_eq_iff_shape hbytes hturned rfl rfl [] [] none none).2.2.mp heq
    exact absurd hshape.1 (by decide)
  · exact (mapText_eq_iff_shape hbytes hspaced rfl rfl [] _ none _).2.2.mpr ⟨rfl, rfl, rfl⟩

end Bindery.CType
