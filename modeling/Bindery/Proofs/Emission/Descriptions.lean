import Bindery.Proofs.Emission.Checks
import Bindery.Proofs.Emission.CodeLines
import Bindery.Proofs.Emission.Unambiguous

/-!
# Descriptions are comments

Interfaces that differ in their descriptions alone, which is to say that they are the same without
them (`Interface.undescribed`), fail with the same fault or give modules that differ in comments.
This rests on what the lines of an item are made of (`Line.Annotates`): its descriptions stand in
comments, and besides these the item has the lines that it has without descriptions. A comment holds
a whole description only if this is on one line; otherwise the lines behind the first go into the
module as they are, and are code unless they are comments themselves (`Interface.Concealed`).
`emit_undescribed` says that this is the only difference, and `emit_description_leaks` shows it.
-/

set_option autoImplicit false
set_option relaxedAutoImplicit false

namespace Bindery

open Emission Traversal

namespace Interface

def Field.undescribed (field : Field) : Field := { field with description := "" }

def Struct.undescribed (struct : Struct) : Struct :=
  { struct with description := "", fields := struct.fields.map Field.undescribed }

def Alias.undescribed (definition : Alias) : Alias := { definition with description := "" }

def Callback.undescribed (callback : Callback) : Callback := { callback with description := "" }

def Enumerator.undescribed (enumerator : Enumerator) : Enumerator :=
  { enumerator with description := "" }

def Enum.undescribed (enum : Enum) : Enum :=
  { enum with description := "", values := enum.values.map Enumerator.undescribed }

def Function.undescribed (function : Function) : Function := { function with description := "" }

/-- An interface without its descriptions. -/
def undescribed (interface : Interface) : Interface where
  structs := interface.structs.map Struct.undescribed
  aliases := interface.aliases.map Alias.undescribed
  callbacks := interface.callbacks.map Callback.undescribed
  enums := interface.enums.map Enum.undescribed
  functions := interface.functions.map Function.undescribed

/-- None of the descriptions of declared items makes code. -/
def Concealed (profile : Profile) (interface : Interface) : Prop :=
  ∀ item ∈ interface.declared profile, ∀ description ∈ item.descriptions,
    Emission.Concealed description

instance (profile : Profile) (interface : Interface) : Decidable (interface.Concealed profile) :=
  inferInstanceAs (Decidable (∀ item ∈ interface.declared profile,
    ∀ description ∈ item.descriptions, Emission.Concealed description))

end Interface

/-- An item without its descriptions. -/
def Item.undescribed : Item → Item
  | .struct s => .struct s.undescribed
  | .typeAlias a => .typeAlias a.undescribed
  | .callback c => .callback c.undescribed
  | .enum e => .enum e.undescribed
  | .function f => .function f.undescribed

theorem declared_undescribed (profile : Profile) (interface : Interface) :
    interface.undescribed.declared profile =
      (interface.declared profile).map Item.undescribed := by
  simp [Interface.declared, Interface.undescribed, List.filter_map, Function.comp_def,
    Item.undescribed, Interface.Struct.undescribed, Interface.Alias.undescribed]

/-- No check looks at a description. -/
theorem findSome?_checks_undescribed (profile : Profile) (item : Item) :
    item.undescribed.checks.findSome? (Check.fault profile) =
      item.checks.findSome? (Check.fault profile) := by
  cases item with
  | struct s =>
    have hfields : (Item.struct s).undescribed.checks = (Item.struct s).checks := List.map_map
    rw [hfields]
  | typeAlias a => rfl
  | callback c => rfl
  | enum e => rfl
  | function f => rfl

/-- Descriptions do not matter to whether a module is emitted, nor to the fault if it is not. -/
theorem error?_emit_undescribed (profile : Profile) (name : String) (interface : Interface) :
    error? (emit profile name interface.undescribed) = error? (emit profile name interface) := by
  rw [error?_emit, error?_emit, Interface.checks, Interface.checks, findSome?_flatMap,
    findSome?_flatMap, declared_undescribed, List.findSome?_map]
  simp only [Function.comp_def, findSome?_checks_undescribed]

/-! ### Lines -/

namespace Line

/-- Lines carry descriptions in comments, and are others without them. A comment starts its line,
follows a tab, or follows the value of an enumerator; an empty description is in no line. -/
inductive Annotates : List Line → List Line → List String → Prop
  | nil : Annotates [] [] []
  | code {lines bare : List Line} {descriptions : List String} (text : String)
    (h : Annotates lines bare descriptions) :
    Annotates (.code text :: lines) (.code text :: bare) descriptions
  | empty {lines bare : List Line} {descriptions : List String}
    (h : Annotates lines bare descriptions) : Annotates lines bare ("" :: descriptions)
  | comment {lines bare : List Line} {descriptions : List String} {indent : String}
    (hindent : indent = "" ∨ indent = "\t") (description : String)
    (h : Annotates lines bare descriptions) :
    Annotates (.comment indent description :: lines) bare (description :: descriptions)
  | value {lines bare : List Line} {descriptions : List String} (name : String) (value : Int)
    (description : String) (h : Annotates lines bare descriptions) :
    Annotates (.annotated (name ++ " = " ++ toString value) description :: lines)
      (.code (name ++ " = " ++ toString value) :: bare) (description :: descriptions)

/-- The code that is read from lines. -/
def codeOf (lines : List Line) : List (List Char) := lines.flatMap fun line ↦ codeLines line.chars

theorem codeOf_cons (line : Line) (lines : List Line) :
    codeOf (line :: lines) = codeLines line.chars ++ codeOf lines := List.flatMap_cons

variable {lines bare : List Line} {descriptions : List String}

theorem Annotates.append {later bareLater : List Line} {others : List String}
    (h : Annotates lines bare descriptions) (hlater : Annotates later bareLater others) :
    Annotates (lines ++ later) (bare ++ bareLater) (descriptions ++ others) := by
  induction h with
  | nil => exact hlater
  | code text _ ih => exact .code text ih
  | empty _ ih => exact .empty ih
  | comment hindent description _ ih => exact .comment hindent description ih
  | value name value description _ ih => exact .value name value description ih

/-- Lines that carry no descriptions may follow. -/
theorem Annotates.append_bare {later bareLater : List Line}
    (h : Annotates lines bare descriptions) (hlater : Annotates later bareLater []) :
    Annotates (lines ++ later) (bare ++ bareLater) descriptions := by
  have happend := h.append hlater
  rwa [List.append_nil] at happend

theorem annotates_remark {indent : String} (hindent : indent = "" ∨ indent = "\t")
    (description : String) : Annotates (remark indent description) [] [description] := by
  unfold remark
  split_ifs with hempty
  · rw [hempty]
    exact .empty .nil
  · exact .comment hindent description .nil

/-- Lines have the code that they have without descriptions, and as much more as these leak. -/
theorem Annotates.length_codeOf (h : Annotates lines bare descriptions) :
    (codeOf lines).length = (codeOf bare).length + (descriptions.flatMap leaks).length := by
  induction h with
  | nil => rfl
  | code text _ ih =>
    rw [codeOf_cons, codeOf_cons, List.length_append, List.length_append, ih, Nat.add_assoc]
  | empty _ ih => exact ih
  | comment hindent description _ ih =>
    have hline := codeLines_comment hindent description
    rw [codeOf_cons, chars, Line.text, hline, List.flatMap_cons, List.length_append,
      List.length_append, ih]
    omega
  | value name value description _ ih =>
    have hline := codeLines_value name value description
    rw [codeOf_cons, codeOf_cons, chars, chars, Line.text, Line.text, hline, List.flatMap_cons]
    simp only [List.length_append, ih]
    omega

/-- Lines whose descriptions leak nothing have the code that they have without them. -/
theorem Annotates.codeOf_eq (h : Annotates lines bare descriptions)
    (hleaks : descriptions.flatMap leaks = []) : codeOf lines = codeOf bare := by
  induction h with
  | nil => rfl
  | code text _ ih => rw [codeOf_cons, codeOf_cons, ih hleaks]
  | empty _ ih => exact ih hleaks
  | comment hindent description _ ih =>
    rw [List.flatMap_cons, List.append_eq_nil_iff] at hleaks
    have hline := codeLines_comment hindent description
    rw [codeOf_cons, chars, Line.text, hline, hleaks.1, List.nil_append, ih hleaks.2]
  | value name value description _ ih =>
    rw [List.flatMap_cons, List.append_eq_nil_iff] at hleaks
    have hline := codeLines_value name value description
    rw [codeOf_cons, codeOf_cons, chars, chars, Line.text, Line.text, hline, hleaks.1,
      List.append_nil, ih hleaks.2]

end Line

/-! ### Items -/

/-- The lines of an item carry its descriptions; otherwise they are those that it has without. -/
def Item.Annotated (profile : Profile) (item : Item) (lines : List Line) : Prop :=
  ∃ bare, item.undescribed.lines profile = .ok bare ∧ Line.Annotates lines bare item.descriptions

theorem annotates_fieldLines {profile : Profile} {fields : List Interface.Field}
    {blocks : List (List Line)}
    (h : List.Forall₂ (fun field block ↦ fieldLines profile field = .ok block) fields blocks) :
    ∃ bare, (fields.map Interface.Field.undescribed).mapM (fieldLines profile) = .ok bare ∧
      Line.Annotates blocks.flatten bare.flatten (fields.map (·.description)) := by
  induction h with
  | nil => exact ⟨[], rfl, .nil⟩
  | @cons field block fields blocks hfield _ ih =>
    obtain ⟨bare, hbare, hannotates⟩ := ih
    obtain ⟨type, htype, hblock⟩ := bind_eq_ok_iff.mp hfield
    obtain rfl := Except.ok.inj hblock
    have hfirst : fieldLines profile field.undescribed =
        .ok [.code ("\t" ++ Identifier.snakeCase field.name ++ " " ++ type)] :=
      bind_eq_ok_iff.mpr ⟨type, htype, rfl⟩
    refine ⟨_, mapM_eq_ok_iff.mpr (.cons hfirst (mapM_eq_ok_iff.mp hbare)), ?_⟩
    exact ((Line.annotates_remark (.inr rfl) field.description).append_bare (.code _ .nil)).append
      hannotates

theorem annotated_struct {profile : Profile} {s : Interface.Struct} {lines : List Line}
    (h : structLines profile s = .ok lines) : (Item.struct s).Annotated profile lines := by
  obtain ⟨blocks, hblocks, h⟩ := bind_eq_ok_iff.mp h
  obtain rfl := Except.ok.inj h
  obtain ⟨bare, hbare, hfields⟩ := annotates_fieldLines (mapM_eq_ok_iff.mp hblocks)
  refine ⟨_, bind_eq_ok_iff.mpr ⟨bare, hbare, rfl⟩, ?_⟩
  have hremark := Line.annotates_remark (.inl rfl) s.description
  exact ((((Line.Annotates.code _ .nil).append hremark).append_bare (.code _ .nil)).append
    hfields).append_bare (.code _ .nil)

theorem annotates_enumeratorLines (values : List Interface.Enumerator) :
    Line.Annotates (values.map enumeratorLine)
      ((values.map Interface.Enumerator.undescribed).map enumeratorLine)
      (values.map (·.description)) := by
  induction values with
  | nil => exact .nil
  | cons value values ih =>
    rw [List.map_cons, List.map_cons, List.map_cons, List.map_cons]
    by_cases hempty : value.description = ""
    · have hline : enumeratorLine value = enumeratorLine value.undescribed := by
        rw [enumeratorLine, hempty]
        rfl
      rw [hline, hempty]
      exact .empty (.code _ ih)
    · rw [enumeratorLine, Line.described, if_neg hempty]
      exact .value _ value.value.toInt value.description ih

theorem annotated_enum (profile : Profile) (e : Interface.Enum) :
    (Item.enum e).Annotated profile (enumLines e) := by
  refine ⟨_, rfl, ?_⟩
  have hremark := Line.annotates_remark (.inl rfl) e.description
  exact ((hremark.append_bare (.code _ .nil)).append
    (annotates_enumeratorLines e.values)).append_bare (.code _ .nil)

theorem annotates_wrapperBody (binding : Binding) :
    Line.Annotates (wrapperBody binding) (wrapperBody binding) [] := by
  unfold wrapperBody
  split
  · exact .code _ .nil
  · exact .code _ .nil
  · exact .code _ (.code _ (.code _ .nil))

theorem annotates_bindingLines (binding : Binding) :
    Line.Annotates (bindingLines binding) (bindingLines { binding with description := "" })
      [binding.description] := by
  have hremark := Line.annotates_remark (.inl rfl) binding.description
  exact ((((Line.Annotates.code _ .nil).append hremark).append_bare
    (.code _ (.code _ .nil))).append_bare (annotates_wrapperBody binding)).append_bare
      (.code _ .nil)

/-- The lines of every item carry its descriptions in comments. -/
theorem annotated_of_lines {profile : Profile} {item : Item} {lines : List Line}
    (h : item.lines profile = .ok lines) : item.Annotated profile lines := by
  cases item with
  | struct s => exact annotated_struct h
  | typeAlias a =>
    obtain ⟨type, htype, h⟩ := bind_eq_ok_iff.mp h
    obtain rfl := Except.ok.inj h
    refine ⟨_, bind_eq_ok_iff.mpr ⟨type, htype, rfl⟩, ?_⟩
    exact (Line.annotates_remark (.inl rfl) a.description).append_bare (.code _ .nil)
  | callback c =>
    obtain ⟨params, hparams, h⟩ := bind_eq_ok_iff.mp h
    obtain ⟨type, htype, h⟩ := bind_eq_ok_iff.mp h
    obtain rfl := Except.ok.inj h
    refine ⟨_, bind_eq_ok_iff.mpr ⟨params, hparams, bind_eq_ok_iff.mpr ⟨type, htype, rfl⟩⟩, ?_⟩
    exact (Line.annotates_remark (.inl rfl) c.description).append_bare (.code _ .nil)
  | enum e =>
    obtain rfl := Except.ok.inj h
    exact annotated_enum profile e
  | function f =>
    obtain ⟨binding, hbinding, rfl⟩ := map_eq_ok_iff.mp h
    obtain ⟨rawReturn, params, hreturn, hparams, rfl⟩ := Binding.ofFunction_eq_ok_iff.mp hbinding
    have hbare : Binding.ofFunction profile.variadics f.undescribed = .ok ⟨f.name,
        Identifier.snakeCase f.name, params, rawReturn, .ofRaw rawReturn, ""⟩ :=
      Binding.ofFunction_eq_ok_iff.mpr ⟨rawReturn, params, hreturn, hparams, rfl⟩
    exact ⟨_, map_eq_ok_iff.mpr ⟨_, hbare, rfl⟩, annotates_bindingLines _⟩

/-! ### Modules -/

/-- The code of the lines of items, with an empty line in front of each item. -/
def Line.codeOfBlocks (blocks : List (List Line)) : List (List Char) :=
  blocks.flatMap fun lines ↦ [] :: Line.codeOf lines

/-- The code that the descriptions of an item make. -/
def Item.leaks (item : Item) : List (List Char) := item.descriptions.flatMap Emission.leaks

theorem leaks_declared_eq_nil_iff {profile : Profile} {interface : Interface} :
    (interface.declared profile).flatMap Item.leaks = [] ↔ interface.Concealed profile := by
  simp only [Item.leaks, List.flatMap_eq_nil_iff, leaks_eq_nil_iff, Interface.Concealed]

theorem exists_prologue (profile : Profile) (name : String) :
    ∃ before, (prologue profile name).toList = before ++ ['\n'] := by
  cases hpreamble : profile.preamble with
  | none => exact ⟨("module " ++ name).toList, by simp [prologue_of_none hpreamble]⟩
  | some preamble =>
    rw [prologue_of_some hpreamble, endLine]
    split_ifs with hended
    · obtain ⟨before, hbefore⟩ := List.getLast?_eq_some_iff.mp hended
      exact ⟨("module " ++ name ++ "\n").toList ++ before, by simp [hbefore]⟩
    · exact ⟨("module " ++ name ++ "\n" ++ preamble).toList, by simp⟩

/-- The code of a module is that of its prologue and of the lines of its items. -/
theorem codeLines_source (profile : Profile) (name : String) : ∃ before, ∀ blocks,
    codeLines (assemble (prologue profile name) (blocks.map Line.render)).toList =
      before ++ (Line.codeOfBlocks blocks ++ [[]]) := by
  obtain ⟨before, hbefore⟩ := exists_prologue profile name
  refine ⟨codeLines before, fun blocks ↦ ?_⟩
  have hblocks : (blocks.flatMap fun lines ↦ [] :: lines.map Line.chars).flatMap codeLines =
      Line.codeOfBlocks blocks := by
    have hempty : codeLines [] = [[]] := rfl
    simp [List.flatMap_assoc, Line.codeOfBlocks, Line.codeOf, List.flatMap_map, hempty]
  rw [toList_assemble, hbefore, List.append_assoc, List.singleton_append,
    codeLines_append_newline, codeLines_ended, hblocks]

theorem Line.codeOfBlocks_cons (lines : List Line) (blocks : List (List Line)) :
    Line.codeOfBlocks (lines :: blocks) =
      [] :: (Line.codeOf lines ++ Line.codeOfBlocks blocks) := by
  rw [Line.codeOfBlocks, List.flatMap_cons, List.cons_append]
  rfl

/-- Items have the code that they have without descriptions, and as much more as these leak. -/
theorem codeOfBlocks_undescribed {profile : Profile} {items : List Item}
    {blocks : List (List Line)}
    (h : List.Forall₂ (fun item lines ↦ item.lines profile = .ok lines) items blocks) :
    ∃ bare, (items.map Item.undescribed).mapM (Item.lines profile) = .ok bare ∧
      (Line.codeOfBlocks blocks).length =
        (Line.codeOfBlocks bare).length + (items.flatMap Item.leaks).length ∧
      (items.flatMap Item.leaks = [] → Line.codeOfBlocks blocks = Line.codeOfBlocks bare) := by
  induction h with
  | nil => exact ⟨[], rfl, rfl, fun _ ↦ rfl⟩
  | @cons item lines items blocks hitem _ ih =>
    obtain ⟨bare, hbare, hlength, hcode⟩ := ih
    obtain ⟨first, hfirst, hannotates⟩ := annotated_of_lines hitem
    refine ⟨first :: bare, mapM_eq_ok_iff.mpr (.cons hfirst (mapM_eq_ok_iff.mp hbare)), ?_, ?_⟩
    · have hlines : (Line.codeOf lines).length = (Line.codeOf first).length + item.leaks.length :=
        hannotates.length_codeOf
      rw [Line.codeOfBlocks_cons, Line.codeOfBlocks_cons, List.flatMap_cons]
      simp only [List.length_cons, List.length_append]
      omega
    · intro hnone
      rw [List.flatMap_cons, List.append_eq_nil_iff] at hnone
      rw [Line.codeOfBlocks_cons, Line.codeOfBlocks_cons, hannotates.codeOf_eq hnone.1,
        hcode hnone.2]

/-- Descriptions are comments. Interfaces that differ in their descriptions alone have the same
fault, if any; if the descriptions of one make no code, then the modules of both have the same code
exactly if those of the other make none either. -/
theorem emit_undescribed {profile : Profile} {name : String} {a b : Interface}
    (hsame : a.undescribed = b.undescribed) :
    error? (emit profile name a) = error? (emit profile name b) ∧
      ∀ ea eb, emit profile name a = .ok ea → emit profile name b = .ok eb →
        b.Concealed profile →
        (codeLines ea.source.toList = codeLines eb.source.toList ↔ a.Concealed profile) := by
  constructor
  · rw [← error?_emit_undescribed profile name a, hsame, error?_emit_undescribed]
  · intro ea eb ha hb hconcealed
    obtain ⟨as, has, hasource⟩ := exists_lines ha
    obtain ⟨bs, hbs, hbsource⟩ := exists_lines hb
    obtain ⟨bare, habare, halength, hacode⟩ := codeOfBlocks_undescribed has
    obtain ⟨other, hbbare, -, hbcode⟩ := codeOfBlocks_undescribed hbs
    -- Both modules are compared to the one that the interfaces have without their descriptions.
    have hbare : other = bare := by
      rw [← declared_undescribed, hsame, declared_undescribed, hbbare] at habare
      exact Except.ok.inj habare
    have hplain := hbcode (leaks_declared_eq_nil_iff.mpr hconcealed)
    obtain ⟨before, hsource⟩ := codeLines_source profile name
    rw [hasource, hbsource, hsource, hsource, List.append_cancel_left_eq,
      List.append_cancel_right_eq, hplain, hbare, ← leaks_declared_eq_nil_iff]
    constructor
    · intro hcode
      rw [hcode] at halength
      exact List.length_eq_zero_iff.mp (by omega)
    · exact hacode

/-- An interface of an enumeration that has one description for itself and its value. -/
def describedInterface (description : String) : Interface where
  structs := []
  aliases := []
  callbacks := []
  enums := [⟨"KeyboardKey", description, [⟨"KEY_A", 65, description⟩]⟩]
  functions := []

theorem emit_undescribed_describedInterface :
    (describedInterface "Keys").undescribed = (describedInterface "").undescribed ∧
      ∃ shown plain, emit .raylib "raylib" (describedInterface "Keys") = .ok shown ∧
        emit .raylib "raylib" (describedInterface "") = .ok plain ∧
        (describedInterface "").Concealed .raylib ∧ (describedInterface "Keys").Concealed .raylib ∧
        codeLines shown.source.toList = codeLines plain.source.toList := by
  have hsame : (describedInterface "Keys").undescribed = (describedInterface "").undescribed := rfl
  have hplain : (describedInterface "").Concealed .raylib := by decide
  have hshown : (describedInterface "Keys").Concealed .raylib := by decide
  obtain ⟨shown, hshownEmit⟩ :
      ∃ shown, emit .raylib "raylib" (describedInterface "Keys") = .ok shown := ⟨_, rfl⟩
  obtain ⟨plain, hplainEmit⟩ :
      ∃ plain, emit .raylib "raylib" (describedInterface "") = .ok plain := ⟨_, rfl⟩
  refine ⟨hsame, shown, plain, hshownEmit, hplainEmit, hplain, hshown, ?_⟩
  exact ((emit_undescribed hsame).2 shown plain hshownEmit hplainEmit hplain).mpr hshown

/-- A description on two lines puts its second line into the code of the module, here the
declaration of a function that the interface does not have. -/
theorem emit_description_leaks : ∃ leaking plain,
    (describedInterface "Keys\nfn C.system(&u8) int").undescribed =
        (describedInterface "Keys").undescribed ∧
      emit .raylib "raylib" (describedInterface "Keys\nfn C.system(&u8) int") = .ok leaking ∧
      emit .raylib "raylib" (describedInterface "Keys") = .ok plain ∧
      "fn C.system(&u8) int".toList ∈ codeLines leaking.source.toList ∧
      "fn C.system(&u8) int".toList ∉ codeLines plain.source.toList :=
  ⟨_, _, rfl, rfl, rfl, by decide +kernel, by decide +kernel⟩

end Bindery
