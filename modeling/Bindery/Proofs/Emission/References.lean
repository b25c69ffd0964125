import Bindery.Proofs.Emission.Checks
import Bindery.Proofs.Emission.Layout

/-!
# Names that a module refers to

A module writes the types it needs by the names of their base types. Such a name stands for
something if the item of the C type declares it, in a line of its block (`Emission.Declares`), or if
the preamble imports it (`Profile.imports`); then it resolves (`Emission.Resolves`).

`references_resolve` says for the built-in profiles which references do. Those to a type that the
table of base types replaces by another spelling do not, unless the profile renames the type in the
same way. Nor do those to the structures that `raygui` drops without an import because only other
dropped structures hold them (`dangling_references`).
-/

set_option autoImplicit false
set_option relaxedAutoImplicit false

namespace Bindery

open Traversal

/-- The C type that an item declares: structures and aliases declare one. -/
def Item.typeName? : Item → Option String
  | .struct s => some s.name
  | .typeAlias a => some a.name
  | .callback _ | .enum _ | .function _ => none

/-- Only structures and aliases declare types. -/
theorem Item.typeName?_eq_some_iff {item : Item} {typeName : String} :
    item.typeName? = some typeName ↔ (∃ s, item = .struct s ∧ s.name = typeName) ∨
      ∃ a, item = .typeAlias a ∧ a.name = typeName := by
  cases item <;> simp [typeName?]

/-- A type that a module needs has this base, which is written by this name. -/
def Interface.Refers (profile : Profile) (interface : Interface) (base written : String) : Prop :=
  ∃ text function type, .mapped text function ∈ interface.checks profile ∧
    CType.ofText text = .ok type ∧ type.base = base ∧ written = CType.baseName base

/-- The names between the braces of the import line of a profile. -/
def Profile.imports (profile : Profile) : List String :=
  match profile.preamble with
  | none => []
  | some preamble =>
    let inside := ((preamble.toList.dropWhile (· ≠ '\x7b')).drop 1).takeWhile (· ≠ '\x7d')
    (Text.splitBy (· = ',') inside).map fun name ↦ String.ofList (Text.trim name)

/-- The line that declares a name for a C type. -/
def Line.declaration (name type : String) : Line := .code ("pub type " ++ name ++ " = C." ++ type)

namespace Emission

/-- The block of an item stands in the source, and one of its lines declares the name. -/
def Declares (profile : Profile) (emission : Emission) (item : Item) (name : String) : Prop :=
  item.ignored profile = false ∧ ∃ lines type, item.lines profile = .ok lines ∧
    Line.declaration name type ∈ lines ∧
    (Line.render lines).toList <:+: emission.source.toList

/-- A name that is written for the type of an item is declared for the item or imported. -/
def Resolves (profile : Profile) (emission : Emission) (item : Item) (written : String) : Prop :=
  emission.Declares profile item written ∨ written ∈ profile.imports

end Emission

/-- The base types that are written by another spelling, without a declaration of the profile that
has it. -/
def Profile.respelled (profile : Profile) : List String :=
  (CType.baseNames.map Prod.fst).filter fun base ↦ !(profile.renames.map Prod.fst).contains base

/-! ### The line of a declaration -/

/-- Of two lists with a common continuation, one begins the other. -/
theorem take_eq_take {α : Type} {a b x y : List α} (h : a ++ x = b ++ y) :
    a.take b.length = b.take a.length := by
  rcases List.append_eq_append_iff.mp h with ⟨more, hmore, -⟩ | ⟨more, hmore, -⟩
  · rw [hmore, List.take_left, List.take_of_length_le (by simp)]
  · rw [hmore, List.take_left, List.take_of_length_le (by simp)]

theorem take_eq_of_append_eq {a b x y : String} (h : a ++ x = b ++ y) :
    a.toList.take b.toList.length = b.toList.take a.toList.length := by
  have hchars := congrArg String.toList h
  rw [String.toList_append, String.toList_append] at hchars
  exact take_eq_take hchars

theorem declaration_notMem_remark {name type indent description : String} :
    Line.declaration name type ∉ Line.remark indent description := by
  unfold Line.remark
  split_ifs <;> simp [Line.declaration]

/-- No line of the body of a structure declares a name. -/
theorem declaration_notMem_fieldLines {profile : Profile} {field : Interface.Field}
    {lines : List Line} {name type : String}
    (h : Emission.fieldLines profile field = .ok lines) : Line.declaration name type ∉ lines := by
  obtain ⟨target, -, hlines⟩ := bind_eq_ok_iff.mp h
  obtain rfl := Except.ok.inj hlines
  intro hmem
  rcases List.mem_append.mp hmem with hremark | hfield
  · exact declaration_notMem_remark hremark
  · have hcode := Line.code.inj (List.mem_singleton.mp hfield)
    simp only [String.append_assoc] at hcode
    exact absurd (take_eq_of_append_eq hcode) (by decide)

/-- The line that declares a name in the block of a structure or an alias is the one for the name
that the profile gives it. -/
theorem exists_of_declaration_mem {profile : Profile} {item : Item} {typeName name type : String}
    {lines : List Line} (hlines : item.lines profile = .ok lines)
    (htype : item.typeName? = some typeName) (hmem : Line.declaration name type ∈ lines) :
    ∃ declared, Line.declaration name type = .declaration (profile.rename typeName) declared := by
  rcases Item.typeName?_eq_some_iff.mp htype with ⟨s, rfl, rfl⟩ | ⟨a, rfl, rfl⟩
  · obtain ⟨fields, hfields, hlines⟩ := bind_eq_ok_iff.mp hlines
    obtain rfl := Except.ok.inj hlines
    simp only [List.mem_append, List.mem_singleton, List.mem_flatten] at hmem
    rcases hmem with (((hfirst | hremark) | hstruct) | ⟨block, hblock, hmem⟩) | hbrace
    · exact ⟨s.name, hfirst⟩
    · exact absurd hremark declaration_notMem_remark
    · have hcode := Line.code.inj hstruct
      simp only [String.append_assoc] at hcode
      exact absurd (take_eq_of_append_eq hcode) (by decide)
    · obtain ⟨field, -, hfield⟩ := exists_mem_of_ok hfields hblock
      exact absurd hmem (declaration_notMem_fieldLines hfield)
    · have hcode := Line.code.inj hbrace
      rw [← String.append_empty (s := "\x7d")] at hcode
      simp only [String.append_assoc] at hcode
      exact absurd (take_eq_of_append_eq hcode) (by decide)
  · obtain ⟨target, -, hlines⟩ := bind_eq_ok_iff.mp hlines
    obtain rfl := Except.ok.inj hlines
    rcases List.mem_append.mp hmem with hremark | hline
    · exact absurd hremark declaration_notMem_remark
    · exact ⟨target.base, List.mem_singleton.mp hline⟩

/-- The text of a block stands in the source of its module. -/
theorem render_infix {prologue : String} {blocks : List (List Line)} {lines : List Line}
    (hlines : lines ∈ blocks) :
    (Line.render lines).toList <:+:
      (Emission.assemble prologue (blocks.map Line.render)).toList := by
  obtain ⟨before, after, rfl⟩ := List.append_of_mem hlines
  rw [Emission.toList_assemble, List.flatMap_append, List.flatMap_cons, List.flatMap_append,
    List.flatMap_append, List.flatMap_cons, ← toList_render, ← List.append_assoc,
    ← List.append_assoc, ← List.append_assoc]
  exact List.infix_append _ _ _

section Items

variable {profile : Profile} {name : String} {interface : Interface} {emission : Emission}
  {item : Item} {typeName : String}

/-- A type that is not dropped is declared by the name that the profile gives it. -/
theorem declares_rename (hemit : emit profile name interface = .ok emission)
    (hitem : item ∈ interface.items) (htype : item.typeName? = some typeName)
    (hkept : item.ignored profile = false) :
    emission.Declares profile item (profile.rename typeName) := by
  obtain ⟨blocks, hblocks, hsource⟩ := exists_lines hemit
  have hdeclared : item ∈ interface.declared profile := by
    rw [← filter_items, List.mem_filter]
    exact ⟨hitem, by simp [hkept]⟩
  obtain ⟨lines, hmem, hlines⟩ := exists_of_mem hblocks hdeclared
  have hline : ∃ type, Line.declaration (profile.rename typeName) type ∈ lines := by
    rcases Item.typeName?_eq_some_iff.mp htype with ⟨s, rfl, rfl⟩ | ⟨a, rfl, rfl⟩
    · obtain ⟨fields, -, hstruct⟩ := bind_eq_ok_iff.mp hlines
      obtain rfl := Except.ok.inj hstruct
      exact ⟨s.name, by simp [Line.declaration]⟩
    · obtain ⟨target, -, halias⟩ := bind_eq_ok_iff.mp hlines
      obtain rfl := Except.ok.inj halias
      exact ⟨target.base, by simp [Line.declaration]⟩
  obtain ⟨type, hline⟩ := hline
  refine ⟨hkept, lines, type, hlines, hline, ?_⟩
  rw [hsource]
  exact render_infix hmem

/-- A name that is declared for an item begins like the one that the profile gives it. -/
theorem begins_of_declares {written : String} (htype : item.typeName? = some typeName)
    (h : emission.Declares profile item written) :
    let declared := (profile.rename typeName).toList ++ " = C.".toList
    let spelled := written.toList ++ " = C.".toList
    spelled.take declared.length = declared.take spelled.length := by
  obtain ⟨-, lines, type, hlines, hmem, -⟩ := h
  obtain ⟨declared, hline⟩ := exists_of_declaration_mem hlines htype hmem
  have hchars := congrArg String.toList (Line.code.inj hline)
  simp only [String.toList_append, List.append_assoc, List.append_cancel_left_eq] at hchars
  rw [← List.append_assoc, ← List.append_assoc] at hchars
  exact take_eq_take hchars

/-- A dropped item is declared nowhere, so its name has to be imported. -/
theorem resolves_of_ignored {written : String} (hdropped : item.ignored profile = true) :
    emission.Resolves profile item written ↔ written ∈ profile.imports := by
  refine or_iff_right fun h ↦ ?_
  rw [h.1] at hdropped
  exact Bool.false_ne_true hdropped

/-- A type that is not dropped is declared by the name it is referred to, unless it is respelled. -/
theorem resolves_of_kept (hbuiltin : profile ∈ Profile.builtin)
    (hemit : emit profile name interface = .ok emission) (hitem : item ∈ interface.items)
    (htype : item.typeName? = some typeName) (hkept : item.ignored profile = false) :
    emission.Resolves profile item (CType.baseName typeName) ↔ typeName ∉ profile.respelled := by
  have hdeclares := declares_rename hemit hitem htype hkept
  have hrespellings : ∀ p ∈ Profile.builtin, ∀ base ∈ p.respelled,
      let declared := (p.rename base).toList ++ " = C.".toList
      let spelled := (CType.baseName base).toList ++ " = C.".toList
      CType.baseName base ∉ p.imports ∧
        spelled.take declared.length ≠ declared.take spelled.length := by decide +kernel
  have hrenames : ∀ p ∈ Profile.builtin, ∀ base ∈ p.renames.map Prod.fst,
      p.rename base = CType.baseName base := by decide +kernel
  by_cases hrespelled : typeName ∈ profile.respelled
  · obtain ⟨himports, hbegins⟩ := hrespellings profile hbuiltin typeName hrespelled
    refine iff_of_false (fun h ↦ h.elim (fun h ↦ ?_) himports) (not_not_intro hrespelled)
    exact hbegins (begins_of_declares htype h)
  refine iff_of_true (.inl ?_) hrespelled
  by_cases hrenamed : typeName ∈ profile.renames.map Prod.fst
  · exact hrenames profile hbuiltin typeName hrenamed ▸ hdeclares
  · -- neither table has the name, so both leave it as it is
    have hlookup : ∀ table : List (String × String), typeName ∉ table.map Prod.fst →
        (table.lookup typeName).getD typeName = typeName := by
      intro table htable
      have hnone : table.lookup typeName = none := by
        rw [List.lookup_eq_none_iff]
        intro entry hentry
        have hne : typeName ≠ entry.1 := by
          rintro rfl
          exact htable (List.mem_map_of_mem hentry)
        simpa using hne
      rw [hnone, Option.getD_none]
    have hbase : typeName ∉ CType.baseNames.map Prod.fst := fun hmem ↦
      hrespelled (List.mem_filter.mpr ⟨hmem, by simpa using hrenamed⟩)
    have hrename : profile.rename typeName = typeName := hlookup _ hrenamed
    have hname : CType.baseName typeName = typeName := hlookup _ hbase
    rw [hname]
    rwa [hrename] at hdeclares

/-- References in a module of a built-in profile. A structure, or an alias that is not dropped, is
declared or imported by the name it is referred to, with two exceptions: base types that are
respelled, and the structures that one profile drops but does not import, because other dropped
structures alone hold them. -/
theorem references_resolve {written : String} (hbuiltin : profile ∈ Profile.builtin)
    (hemit : emit profile name interface = .ok emission) (hitem : item ∈ interface.items)
    (htype : item.typeName? = some typeName) (hrefers : interface.Refers profile typeName written)
    (halias : ∀ a, item = .typeAlias a → item.ignored profile = false) :
    emission.Resolves profile item written ↔ typeName ∉ profile.respelled ∧
      ¬(item.ignored profile = true ∧ typeName ∈ ["Texture2D", "Image", "GlyphInfo"]) := by
  obtain ⟨_, _, _, -, -, -, rfl⟩ := hrefers
  cases hignored : item.ignored profile with
  | false =>
    rw [resolves_of_kept hbuiltin hemit hitem htype hignored]
    simp
  | true =>
    have hstructs : ∀ p ∈ Profile.builtin, ∀ base ∈ p.ignoredStructs,
        (CType.baseName base ∈ p.imports ↔ base ∉ p.respelled ∧
          ¬(true = true ∧ base ∈ ["Texture2D", "Image", "GlyphInfo"])) := by decide +kernel
    rw [resolves_of_ignored hignored]
    rcases Item.typeName?_eq_some_iff.mp htype with ⟨s, rfl, rfl⟩ | ⟨a, rfl, rfl⟩
    · have hmem : s.name ∈ profile.ignoredStructs := by
        simpa [Item.ignored, Profile.ignoresStruct] using hignored
      exact hstructs profile hbuiltin s.name hmem
    · exact absurd (halias a rfl) (by simp [hignored])

end Items

example : "float3" ∈ Profile.raylib.respelled ∧ "float3" ∉ Profile.raymath.respelled := by decide

/-- An interface of a structure that `raymath` drops, one that it renames and a function of both. -/
def vectorInterface : Interface where
  structs := [⟨"Vector3", "", [⟨"x", "float", ""⟩]⟩, ⟨"float3", "", [⟨"v", "float[3]", ""⟩]⟩]
  aliases := []
  callbacks := []
  enums := []
  functions := [⟨"Vector3ToFloatV", "float3", [⟨"v", "Vector3"⟩], ""⟩]

theorem references_resolve_vectorInterface : ∃ emission,
    emit .raymath "raymath" vectorInterface = .ok emission ∧
      emission.Resolves .raymath (.struct ⟨"Vector3", "", [⟨"x", "float", ""⟩]⟩) "Vector3" ∧
      emission.Resolves .raymath (.struct ⟨"float3", "", [⟨"v", "float[3]", ""⟩]⟩) "Float3" := by
  have hsome : ∃ emission, emit .raymath "raymath" vectorInterface = .ok emission := ⟨_, rfl⟩
  obtain ⟨emission, hemit⟩ := hsome
  have hparam : vectorInterface.Refers .raymath "Vector3" "Vector3" :=
    ⟨"Vector3", some (Identifier.snakeCase "Vector3ToFloatV"), ⟨"Vector3", false, 0, []⟩,
      .tail _ (.tail _ (.head _)), rfl, rfl, rfl⟩
  have hreturn : vectorInterface.Refers .raymath "float3" "Float3" :=
    ⟨"float3", none, ⟨"float3", false, 0, []⟩, .tail _ (.head _), rfl, rfl, rfl⟩
  refine ⟨emission, hemit, ?_, ?_⟩
  · exact (references_resolve (by decide) hemit (by decide) rfl hparam (by simp)).mpr (by decide)
  · exact (references_resolve (by decide) hemit (by decide) rfl hreturn (by simp)).mpr (by decide)

/-- An interface of a structure that `raygui` drops, and a function that takes it. -/
def iconInterface : Interface where
  structs := [⟨"Texture2D", "", [⟨"id", "unsigned int", ""⟩]⟩]
  aliases := []
  callbacks := []
  enums := []
  functions := [⟨"GuiIcon", "void", [⟨"icon", "Texture2D"⟩], ""⟩]

/-- An interface of an alias whose name the bindings leave to C, and a callback that takes it. -/
def listInterface : Interface where
  structs := []
  aliases := [⟨"va_list", "__builtin_va_list", ""⟩]
  callbacks := [⟨"TraceLogCallback", "void", [⟨"args", "va_list"⟩], ""⟩]
  enums := []
  functions := []

/-- A function of a module can take a structure that the module neither declares nor imports, and a
callback a type that is declared by another name than it is referred to. -/
theorem dangling_references :
    (∃ emission, emit .raygui "raygui" iconInterface = .ok emission ∧
      iconInterface.Refers .raygui "Texture2D" "Texture2D" ∧
      ¬emission.Resolves .raygui (.struct ⟨"Texture2D", "", [⟨"id", "unsigned int", ""⟩]⟩)
        "Texture2D") ∧
    ∃ emission, emit .raylib "raylib" listInterface = .ok emission ∧
      listInterface.Refers .raylib "va_list" "C.va_list" ∧
      ¬emission.Resolves .raylib (.typeAlias ⟨"va_list", "__builtin_va_list", ""⟩) "C.va_list" := by
  have hicon : ∃ emission, emit .raygui "raygui" iconInterface = .ok emission := ⟨_, rfl⟩
  have hlist : ∃ emission, emit .raylib "raylib" listInterface = .ok emission := ⟨_, rfl⟩
  obtain ⟨gui, hgui⟩ := hicon
  obtain ⟨lib, hlib⟩ := hlist
  refine ⟨⟨gui, hgui, ?_, ?_⟩, lib, hlib, ?_, ?_⟩
  · exact ⟨"Texture2D", some (Identifier.snakeCase "GuiIcon"), ⟨"Texture2D", false, 0, []⟩,
      .tail _ (.head _), rfl, rfl, rfl⟩
  · rw [resolves_of_ignored (by decide)]
    decide
  · exact ⟨"va_list", some (Identifier.snakeCase "TraceLogCallback"), ⟨"va_list", false, 0, []⟩,
      .tail _ (.head _), rfl, rfl, rfl⟩
  · rw [← show CType.baseName "va_list" = "C.va_list" from rfl,
      resolves_of_kept (by decide) hlib (by decide) rfl (by decide)]
    decide

end Bindery
