import Bindery.Proofs.Emission.Layout
import Bindery.Proofs.Interface.Schema
import Bindery.Proofs.Json.Gap
import Bindery.Proofs.Json.Integer

/-!
# Values of enumerators

The value of an enumerator goes from the description into the source as it is written
(`value_verbatim_or_refused`). A description is taken as a tree with a gap where the value of one
enumerator stands (`valueSteps`), so that nothing is asked of the rest of it but that it is read with
some value there. With the numeral of an integer in the gap it is read as the same interface but for
this value (`put_valueSteps`), or not at all. In the source of a module the line of an enumerator
stands behind the lines of the earlier ones, in the block of its enumeration, which follows the
module of all that is declared before (`exists_source_of_enumerator`).
-/

set_option autoImplicit false
set_option relaxedAutoImplicit false

namespace Bindery

open Traversal

/-! ### Lists -/

theorem take_append_cons_drop {α : Type} {l : List α} {index : Nat} {a : α}
    (h : l[index]? = some a) : l.take index ++ a :: l.drop (index + 1) = l := by
  obtain ⟨hindex, rfl⟩ := List.getElem?_eq_some_iff.mp h
  rw [← List.drop_eq_getElem_cons hindex, List.take_append_drop]

theorem modify_map {α β : Type} {f : α → α} {g : α → β} {h : β → β}
    (hcommute : ∀ a, h (g a) = g (f a)) (l : List α) (index : Nat) :
    (l.map g).modify index h = (l.modify index f).map g := by
  refine List.ext_getElem? fun k ↦ ?_
  simp only [List.getElem?_modify, List.getElem?_map]
  cases l[k]? with
  | none => rfl
  | some a =>
    by_cases hk : index = k
    · simp [hk, hcommute]
    · simp [hk]

/-! ### The line of an enumerator -/

/-- The lines in front of the enumerators of an enumeration. -/
def Emission.enumHead (enum : Interface.Enum) : List Line :=
  Line.remark "" enum.description ++ [.code ("pub enum " ++ enum.name ++ " \x7b")]

/-- An interface up to an enumeration. -/
def Interface.beforeEnum (interface : Interface) (index : Nat) : Interface :=
  { interface with enums := interface.enums.take index, functions := [] }

theorem declared_beforeEnum (profile : Profile) {interface : Interface} {index : Nat}
    {enum : Interface.Enum} (henum : interface.enums[index]? = some enum) :
    ∃ later, interface.declared profile =
      (interface.beforeEnum index).declared profile ++ .enum enum :: later := by
  refine ⟨(interface.enums.drop (index + 1)).map .enum ++ interface.functions.map .function, ?_⟩
  have henums := congrArg (List.map Item.enum) (take_append_cons_drop henum)
  rw [List.map_append, List.map_cons] at henums
  rw [Interface.declared, ← henums, Interface.declared]
  simp only [Interface.beforeEnum, List.map_nil, List.append_nil, List.append_assoc,
    List.cons_append]

/-- The line of an enumerator in a module. In front of it stand the module of what is declared before
its enumeration, the head of the enumeration and the lines of the enumerators before it. -/
theorem exists_source_of_enumerator {profile : Profile} {name : String} {interface : Interface}
    {emission : Emission} (hemit : emit profile name interface = .ok emission) {i j : Nat}
    {enum : Interface.Enum} (henum : interface.enums[i]? = some enum)
    {enumerator : Interface.Enumerator} (henumerator : enum.values[j]? = some enumerator) :
    ∃ start rest, emit profile name (interface.beforeEnum i) = .ok start ∧
      emission.source = start.source ++ "\n" ++
        Line.render (Emission.enumHead enum ++
          (enum.values.take j).map Emission.enumeratorLine) ++
        ("\t" ++ String.ofList (Text.lowercase enumerator.name.toList) ++ " = " ++
          toString enumerator.value.toInt ++ Line.note enumerator.description ++ "\n") ++ rest := by
  obtain ⟨later, hdeclared⟩ := declared_beforeEnum profile henum
  obtain ⟨start, text, rest, hstart, htext, hsource⟩ := exists_source_of_item hdeclared hemit
  obtain rfl : Line.render (Emission.enumLines enum) = text := Except.ok.inj htext
  have hvalues := congrArg (List.map Emission.enumeratorLine) (take_append_cons_drop henumerator)
  rw [List.map_append, List.map_cons] at hvalues
  have hlines : Emission.enumLines enum = (Emission.enumHead enum ++
      (enum.values.take j).map Emission.enumeratorLine) ++
        Emission.enumeratorLine enumerator ::
          ((enum.values.drop (j + 1)).map Emission.enumeratorLine ++ [.code "\x7d"]) := by
    rw [Emission.enumLines, ← hvalues, Emission.enumHead]
    simp only [List.append_assoc, List.cons_append]
  refine ⟨start, Line.render ((enum.values.drop (j + 1)).map Emission.enumeratorLine ++
    [.code "\x7d"]) ++ rest, hstart, ?_⟩
  rw [hsource, hlines, Line.render_append, Line.render_cons, Emission.enumeratorLine,
    Line.text_described]
  simp only [String.append_assoc]

/-! ### The value in a description -/

namespace Interface

open Json

/-- The steps from a description to the value of an enumerator. -/
def valueSteps (i j : Nat) : List Step :=
  [.key "enums", .item i, .key "values", .item j, .key "value"]

def Enum.withValue (enum : Enum) (index : Nat) (value : Int64) : Enum :=
  { enum with
    values := enum.values.modify index fun enumerator ↦ { enumerator with value := value } }

/-- An interface with another value of one enumerator. -/
def withValue (interface : Interface) (i j : Nat) (value : Int64) : Interface :=
  { interface with enums := interface.enums.modify i fun enum ↦ enum.withValue j value }

theorem withValue_enums {interface : Interface} {i : Nat} {enum : Enum}
    (henum : interface.enums[i]? = some enum) (j : Nat) (value : Int64) :
    (interface.withValue i j value).enums[i]? = some (enum.withValue j value) := by
  rw [withValue, List.getElem?_modify_eq, henum]
  rfl

theorem Enum.withValue_values {enum : Enum} {index : Nat} {enumerator : Enumerator}
    (henumerator : enum.values[index]? = some enumerator) (value : Int64) :
    (enum.withValue index value).values[index]? = some { enumerator with value := value } := by
  rw [withValue, List.getElem?_modify_eq, henumerator]
  rfl

theorem put_value (enumerator : Enumerator) (value : Int64) :
    enumerator.toJson.put [.key "value"] (.integer value.toInt) =
      { enumerator with value := value }.toJson := rfl

theorem put_values (enum : Enum) (index : Nat) (value : Int64) :
    enum.toJson.put [.key "values", .item index, .key "value"] (.integer value.toInt) =
      (enum.withValue index value).toJson := by
  have hvalues : (enum.values.map Enumerator.toJson).modify index
      (fun part ↦ part.put [.key "value"] (.integer value.toInt)) =
        (enum.withValue index value).values.map Enumerator.toJson :=
    modify_map (fun enumerator ↦ put_value enumerator value) enum.values index
  change Json.object [("name", .text enum.name), ("description", .text enum.description),
    ("values", .list ((enum.values.map Enumerator.toJson).modify index fun part ↦
      part.put [.key "value"] (.integer value.toInt)))] = _
  rw [hvalues]
  rfl

/-- Putting a value into a description is giving it to the enumerator. -/
theorem put_valueSteps (interface : Interface) (i j : Nat) (value : Int64) :
    interface.toJson.put (valueSteps i j) (.integer value.toInt) =
      (interface.withValue i j value).toJson := by
  have henums : (interface.enums.map Enum.toJson).modify i
      (fun part ↦ part.put [.key "values", .item j, .key "value"] (.integer value.toInt)) =
        (interface.withValue i j value).enums.map Enum.toJson :=
    modify_map (fun enum ↦ put_values enum j value) interface.enums i
  change Json.object [("structs", .list (interface.structs.map Struct.toJson)),
    ("aliases", .list (interface.aliases.map Alias.toJson)),
    ("callbacks", .list (interface.callbacks.map Callback.toJson)),
    ("enums", .list ((interface.enums.map Enum.toJson).modify i fun part ↦
      part.put [.key "values", .item j, .key "value"] (.integer value.toInt))),
    ("functions", .list (interface.functions.map Function.toJson))] = _
  rw [henums]
  rfl

theorem exists_of_partAt?_valueSteps {interface : Interface} {i j : Nat} {json : Json}
    (h : interface.toJson.partAt? (valueSteps i j) = some json) :
    ∃ enum enumerator, interface.enums[i]? = some enum ∧ enum.values[j]? = some enumerator := by
  obtain ⟨enums, henums, h⟩ := Option.bind_eq_some_iff.mp h
  obtain rfl : .list (interface.enums.map Enum.toJson) = enums := Option.some.inj henums
  obtain ⟨outer, houter, h⟩ := Option.bind_eq_some_iff.mp h
  obtain ⟨enum, henum, rfl⟩ := Option.map_eq_some_iff.mp (List.getElem?_map.symm.trans houter)
  obtain ⟨values, hvalues, h⟩ := Option.bind_eq_some_iff.mp h
  obtain rfl : .list (enum.values.map Enumerator.toJson) = values := Option.some.inj hvalues
  obtain ⟨inner, hinner, -⟩ := Option.bind_eq_some_iff.mp h
  obtain ⟨enumerator, henumerator, -⟩ :=
    Option.map_eq_some_iff.mp (List.getElem?_map.symm.trans hinner)
  exact ⟨enum, enumerator, henum, henumerator⟩

/-! ### Verbatim or refused -/

/-- A document that is not read is malformed in whichever file it stands. -/
theorem load_of_read_error {document : String} {problem : Problem}
    (hread : read document = .error problem) {files : FileTree} {path : String}
    (hdocument : files.readText path = .ok document) :
    load files path = .error (.malformedInput path problem) := by
  rw [load, if_pos (exists?_of_readText hdocument), hdocument]
  simp only [hread]
  rfl

/-- The meaning of the numeral of an integer. -/
theorem meaning_number {numeral : Numeral} (hinteger : numeral.IsInteger) (hfits : numeral.Fits) :
    Kind.integer.meaning (.number numeral) =
      some (.integer (Int64.ofInt numeral.value).toInt) := by
  rw [Kind.meaning, hinteger.int64?_eq, if_pos hfits]
  rfl

/-- The numeral of an integer as the value of an enumerator, at any place of a description that is
read with some value there. If the integer fits, the description is read with this value alone
changed, and every module of the interface has the characters of the numeral in the line of the
enumerator, behind a tab, its name in lower case and an equals sign; only the description follows
in a comment. Otherwise the description is malformed. -/
theorem value_verbatim_or_refused {layers : List Layer} {i j : Nat}
    (hgap : Leads kind layers (valueSteps i j) .integer) {filler : Tree} {original : String}
    {accepted : Interface} (hfiller : (fill layers filler).Spells original.toList)
    (haccepted : read original = .ok accepted) {numeral : Numeral} (hinteger : numeral.IsInteger)
    {document : String} (hdocument : (fill layers (.number numeral)).Spells document.toList) :
    (numeral.Fits → ∃ interface enum enumerator,
      read document = .ok interface ∧
      interface = accepted.withValue i j (.ofInt numeral.value) ∧
      interface.enums[i]? = some enum ∧ enum.values[j]? = some enumerator ∧
      ∀ profile name emission, emit profile name interface = .ok emission →
        ∃ start rest, emit profile name (interface.beforeEnum i) = .ok start ∧
          emission.source = start.source ++ "\n" ++
            Line.render (Emission.enumHead enum ++
              (enum.values.take j).map Emission.enumeratorLine) ++
            ("\t" ++ String.ofList (Text.lowercase enumerator.name.toList) ++ " = " ++
              String.ofList numeral.chars ++ Line.note enumerator.description ++ "\n") ++ rest) ∧
    (¬numeral.Fits → ∃ problem, read document = .error problem ∧
      ∀ (files : FileTree) (path : String), files.readText path = .ok document →
        load files path = .error (.malformedInput path problem)) := by
  constructor
  · intro hfits
    obtain ⟨_, -, hpart, hput⟩ := hgap.meaning_fill ((read_eq_ok_iff hfiller).mp haccepted)
    obtain ⟨enum, enumerator, henum, henumerator⟩ := exists_of_partAt?_valueSteps hpart
    have hread : read document = .ok (accepted.withValue i j (.ofInt numeral.value)) := by
      rw [read_eq_ok_iff hdocument, ← put_valueSteps]
      exact hput _ _ (meaning_number hinteger hfits)
    have hvalue : (Int64.ofInt numeral.value).toInt = numeral.value :=
      Int64.toInt_ofInt_of_le hfits.2.1 hfits.2.2
    have hchars : toString (Int64.ofInt numeral.value).toInt = String.ofList numeral.chars := by
      rw [hvalue, ← hinteger.toList_toString_value hfits.1, String.ofList_toList]
    refine ⟨_, enum.withValue j (.ofInt numeral.value),
      { enumerator with value := .ofInt numeral.value }, hread, rfl, withValue_enums henum j _,
      Enum.withValue_values henumerator _, fun profile name emission hemit ↦ ?_⟩
    rw [← hchars]
    exact exists_source_of_enumerator hemit (withValue_enums henum j _)
      (Enum.withValue_values henumerator _)
  · intro hfits
    have hnone : (read document).toOption = none := by
      have hmeaning := implements_interface.document hdocument
      rw [(hgap.at_fill _).meaning_eq_none] at hmeaning
      · exact Option.map_eq_none_iff.mp hmeaning
      · rw [Kind.meaning, hinteger.int64?_eq, if_neg hfits]
        rfl
    obtain ⟨problem, hproblem⟩ := toOption_eq_none_iff.mp hnone
    exact ⟨problem, hproblem, fun files path ↦ load_of_read_error hproblem⟩

/-- The layers around the value of a flag. -/
def flagLayers : List Layer :=
  [.value [] (plainText "enums") [], .item [] [],
    .value [(plainText "name", .text (plainText "Flags")), (plainText "description", .text [])]
      (plainText "values") [],
    .item [] [],
    .value [(plainText "name", .text (plainText "FLAG_TOP"))] (plainText "value")
      [(plainText "description", .text (plainText "highest bit"))]]

/-- The description of the flag with a value. -/
def flagDocument (numeral : Numeral) : String :=
  String.ofList ((fill flagLayers (.number numeral)).layout [])

/-- The flag without a bit. -/
def flagInterface : Interface :=
  ⟨[], [], [], [⟨"Flags", "", [⟨"FLAG_TOP", 0, "highest bit"⟩]⟩], []⟩

theorem leads_flagLayers : Leads kind flagLayers (valueSteps 0 0) .integer :=
  .inside (.value _ _ (by decide) (.tail _ (.tail _ (.tail _ (.head _)))) (by decide)) <|
  .inside (.item _ _ _) <|
  .inside (.value _ _ (by decide) (.tail _ (.tail _ (.head _))) (by decide)) <|
  .inside (.item _ _ _) <|
  .inside (.value _ _ (by decide) (.tail _ (.head _)) (by decide)) (.here _)

/-- The lowest integer of 64 bits is written as it stands, and the one after the highest is
refused. -/
theorem value_verbatim_or_refused_flags :
    (∃ interface emission start rest,
      read (flagDocument (.ofNat true 0x8000000000000000)) = .ok interface ∧
      emit .raylib "raylib" interface = .ok emission ∧ emission.source =
        start ++ "\tflag_top = -9223372036854775808 // highest bit\n" ++ rest) ∧
    ∃ problem, read (flagDocument (.ofNat false 0x8000000000000000)) = .error problem := by
  have hspells : ∀ numeral, (fill flagLayers (.number numeral)).Spells
      (flagDocument numeral).toList := fun numeral ↦ spells_text (by simp) _
  have haccepted : read (flagDocument (.ofNat false 0)) = .ok flagInterface := by decide +kernel
  have hlowest : (Numeral.ofNat true 0x8000000000000000).IsInteger := ⟨rfl, rfl⟩
  have hhigh : (Numeral.ofNat false 0x8000000000000000).IsInteger := ⟨rfl, rfl⟩
  constructor
  · obtain ⟨interface, enum, enumerator, hread, rfl, henum, henumerator, hsource⟩ :=
      (value_verbatim_or_refused leads_flagLayers (hspells _) haccepted hlowest (hspells _)).1
        (by decide +kernel)
    obtain rfl := Option.some.inj henum
    obtain rfl := Option.some.inj henumerator
    have hsome : ∃ emission, emit .raylib "raylib" (flagInterface.withValue 0 0
        (.ofInt (Numeral.ofNat true 0x8000000000000000).value)) = .ok emission := ⟨_, rfl⟩
    obtain ⟨emission, hemit⟩ := hsome
    obtain ⟨start, rest, -, hline⟩ := hsource _ _ _ hemit
    have htext : "\t" ++ String.ofList (Text.lowercase "FLAG_TOP".toList) ++ " = " ++
        String.ofList (Numeral.ofNat true 0x8000000000000000).chars ++ Line.note "highest bit" ++
          "\n" = "\tflag_top = -9223372036854775808 // highest bit\n" := by decide +kernel
    exact ⟨_, emission, _, rest, hread, hemit,
      hline.trans (congrArg (fun line ↦ _ ++ line ++ rest) htext)⟩
  · obtain ⟨problem, hproblem, -⟩ :=
      (value_verbatim_or_refused leads_flagLayers (hspells _) haccepted hhigh (hspells _)).2
        (by decide +kernel)
    exact ⟨problem, hproblem⟩

end Interface

end Bindery
