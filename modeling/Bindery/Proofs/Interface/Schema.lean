import Bindery.Proofs.Generation.AllOrNothing
import Bindery.Proofs.Interface.RoundTrip
import Bindery.Proofs.Json.Change
import Bindery.Proofs.Json.Position

/-!
# The shape of descriptions

`Interface.kind` is the shape of a description, with the shapes of its items inside. A document is
read as the interface that its tree shows in this shape (`read_eq_ok_iff`). So the layout of a
document, the order of its keys, keys that are unknown and empty lists do not matter
(`read_of_changes`), and an object that does not have what its item asks for is never made up for
(`read_strict`).
-/

set_option autoImplicit false
set_option relaxedAutoImplicit false

namespace Bindery.Interface

open Json Traversal

/-! ### Shapes -/

def Field.kind : Kind :=
  .record [("name", true, .text), ("type", true, .text), ("description", true, .text)]

def Struct.kind : Kind :=
  .record [("name", true, .text), ("description", true, .text), ("fields", true, .list Field.kind)]

def Alias.kind : Kind :=
  .record [("name", true, .text), ("type", true, .text), ("description", true, .text)]

def Param.kind : Kind := .record [("name", true, .text), ("type", true, .text)]

def Callback.kind : Kind :=
  .record [("name", true, .text), ("returnType", true, .text),
    ("params", false, .list Param.kind), ("description", true, .text)]

def Enumerator.kind : Kind :=
  .record [("name", true, .text), ("value", true, .integer), ("description", true, .text)]

def Enum.kind : Kind :=
  .record [("name", true, .text), ("description", true, .text),
    ("values", true, .list Enumerator.kind)]

def Function.kind : Kind :=
  .record [("name", true, .text), ("returnType", true, .text),
    ("params", false, .list Param.kind), ("description", true, .text)]

def kind : Kind :=
  .record [("structs", false, .list Struct.kind), ("aliases", false, .list Alias.kind),
    ("callbacks", false, .list Callback.kind), ("enums", false, .list Enum.kind),
    ("functions", false, .list Function.kind)]

theorem implements_field : Implements Field.reader Field.toJson Field.kind :=
  implements_record "struct Field"
    (.field implements_text rfl <| .field implements_text rfl <|
      .field implements_text rfl .done)
    (by decide) fun _ ↦ rfl

theorem implements_struct : Implements Struct.reader Struct.toJson Struct.kind :=
  implements_record "struct Struct"
    (.field implements_text rfl <| .field implements_text rfl <|
      .field (implements_list implements_field) rfl .done)
    (by decide) fun _ ↦ rfl

theorem implements_alias : Implements Alias.reader Alias.toJson Alias.kind :=
  implements_record "struct Alias"
    (.field implements_text rfl <| .field implements_text rfl <|
      .field implements_text rfl .done)
    (by decide) fun _ ↦ rfl

theorem implements_param : Implements Param.reader Param.toJson Param.kind :=
  implements_record "struct Param"
    (.field implements_text rfl <| .field implements_text rfl .done)
    (by decide) fun _ ↦ rfl

theorem implements_callback : Implements Callback.reader Callback.toJson Callback.kind :=
  implements_record "struct Callback"
    (.field implements_text rfl <| .field implements_text rfl <|
      .field (implements_list implements_param) rfl <| .field implements_text rfl .done)
    (by decide) fun _ ↦ rfl

theorem implements_enumerator : Implements Enumerator.reader Enumerator.toJson Enumerator.kind :=
  implements_record "struct EnumValue"
    (.field implements_text rfl <| .field implements_integer rfl <|
      .field implements_text rfl .done)
    (by decide) fun _ ↦ rfl

theorem implements_enum : Implements Enum.reader Enum.toJson Enum.kind :=
  implements_record "struct Enum"
    (.field implements_text rfl <| .field implements_text rfl <|
      .field (implements_list implements_enumerator) rfl .done)
    (by decide) fun _ ↦ rfl

theorem implements_function : Implements Function.reader Function.toJson Function.kind :=
  implements_record "struct Function"
    (.field implements_text rfl <| .field implements_text rfl <|
      .field (implements_list implements_param) rfl <| .field implements_text rfl .done)
    (by decide) fun _ ↦ rfl

theorem implements_interface : Implements reader toJson kind :=
  implements_record "struct ApiDescription"
    (.field (implements_list implements_struct) rfl <|
      .field (implements_list implements_alias) rfl <|
      .field (implements_list implements_callback) rfl <|
      .field (implements_list implements_enum) rfl <|
      .field (implements_list implements_function) rfl .done)
    (by decide) fun _ ↦ rfl

/-- Interfaces that are the same value are the same. -/
theorem toJson_injective {first second : Interface} (h : first.toJson = second.toJson) :
    first = second := by
  have hfirst := read_write first
  rw [write, h] at hfirst
  exact Except.ok.inj (hfirst.symm.trans (read_write second))

/-- A document is read as the interface that its tree says. -/
theorem read_eq_ok_iff {tree : Tree} {document : String} (h : tree.Spells document.toList)
    {interface : Interface} :
    read document = .ok interface ↔ kind.meaning tree = some interface.toJson := by
  rw [← implements_interface.document h]
  constructor
  · intro hread
    rw [read] at hread
    rw [hread]
    rfl
  · intro hmeaning
    obtain ⟨found, hfound, hjson⟩ := Option.map_eq_some_iff.mp hmeaning
    rw [← toJson_injective hjson]
    exact toOption_eq_some_iff.mp hfound

/-! ### What does not matter -/

/-- A document is read as another one that differs from it in blanks, in the order of keys, in
unknown keys with any values at all and in empty lists for keys that may be left out. -/
theorem read_of_changes {tree changed : Tree} {document other : String}
    (htree : tree.Spells document.toList) (hchanged : changed.Spells other.toList)
    (hchanges : Relation.EqvGen (Change kind) tree changed) {interface : Interface}
    (h : read document = .ok interface) : read other = .ok interface := by
  rw [read_eq_ok_iff htree] at h
  rw [read_eq_ok_iff hchanged, ← meaning_eq_of_changes hchanges, h]

/-- A function without parameters. -/
def bell : Interface := ⟨[], [], [], [], [⟨"Bell", "void", [], ""⟩]⟩

/-- The keys that a function needs. -/
def bellMembers : List (List Piece × Tree) :=
  [(plainText "name", .text (plainText "Bell")), (plainText "returnType", .text (plainText "void")),
    (plainText "description", .text [])]

def bellTree : Tree := .object [(plainText "functions", .list [.object bellMembers])]

/-- The function with its keys the other way round, behind an unknown key and an empty list. -/
def bellChanged : Tree :=
  .object [(plainText "defines", .list [.object [], .null]), (plainText "enums", .list []),
    (plainText "functions", .list [.object bellMembers.reverse])]

theorem spells_text {gap : List Char} (hgap : ∀ c ∈ gap, isSpace c = true) (tree : Tree) :
    tree.Spells (String.ofList (tree.layout gap)).toList := by
  rw [String.toList_ofList]
  exact tree.spells_layout hgap

theorem read_of_changes_bell :
    read (String.ofList (bellTree.layout [])) = .ok bell ∧
      read (String.ofList (bellChanged.layout ['\n', ' '])) = .ok bell := by
  have hmembers : Change (.list Function.kind) (.list [.object bellMembers])
      (.list [.object bellMembers.reverse]) :=
    .item [] [] (.permute (List.reverse_perm bellMembers).symm)
  have hnames : decode? (plainText "functions") = some "functions".toList ∧
      decode? (plainText "enums") = some "enums".toList ∧
      decode? (plainText "defines") = some "defines".toList := by decide
  have hfunctions : Change kind bellTree
      (.object [(plainText "functions", .list [.object bellMembers.reverse])]) :=
    .value [] hnames.1 (by simpa using hmembers)
  have henums : Change kind (.object [(plainText "functions", .list [.object bellMembers.reverse])])
      (.object [(plainText "enums", .list []),
        (plainText "functions", .list [.object bellMembers.reverse])]) :=
    .empty _ hnames.2.1 (by decide) (by simp)
  have hdefines : Change kind _ bellChanged :=
    .unknown _ (.list [.object [], .null]) hnames.2.2 (by decide)
  have hchanges : Relation.EqvGen (Change kind) bellTree bellChanged :=
    .trans _ _ _ (.rel _ _ hfunctions) (.trans _ _ _ (.rel _ _ henums) (.rel _ _ hdefines))
  have hread : read (String.ofList (bellTree.layout [])) = .ok bell := by decide +kernel
  exact ⟨hread, read_of_changes (spells_text (by simp) bellTree)
    (spells_text (by simp [isSpace]) bellChanged) hchanges hread⟩

/-! ### What is not made up for -/

/-- A document with a flawed object in it is malformed, wherever the object stands. In one that is
read, every object has each key that it needs exactly once, and if no item is written as a list,
the interface shows every item of every list, in order. -/
theorem read_strict {tree : Tree} {document : String} (htree : tree.Spells document.toList) :
    (∀ keys members, At kind tree (.record keys) (.object members) → Flawed keys members →
      ∃ problem, read document = .error problem ∧
        ∀ (files : FileTree) (path : String), files.readText path = .ok document →
          load files path = .error (.malformedInput path problem)) ∧
    ∀ interface, read document = .ok interface →
      (∀ keys members, At kind tree (.record keys) (.object members) →
        ∀ name item, (name, true, item) ∈ keys →
          ∃ value, valuesFor name members = [value]) ∧
      ((∀ keys items, ¬At kind tree (.record keys) (.list items)) →
        kind.Shows tree interface.toJson) := by
  refine ⟨fun keys members hat hflawed ↦ ?_, fun interface hread ↦ ?_⟩
  · have hnone : (read document).toOption = none := by
      have hmeaning := implements_interface.document htree
      rw [hat.meaning_eq_none hflawed.meaning_eq_none] at hmeaning
      exact Option.map_eq_none_iff.mp hmeaning
    obtain ⟨problem, hproblem⟩ := toOption_eq_none_iff.mp hnone
    refine ⟨problem, hproblem, fun files path hdocument ↦ ?_⟩
    rw [load, if_pos (exists?_of_readText hdocument), hdocument]
    simp only [hproblem]
    rfl
  · have hmeaning := (read_eq_ok_iff htree).mp hread
    have hsome : kind.meaning tree ≠ none := by simp [hmeaning]
    exact ⟨fun keys members hat name item hkey ↦ hat.exists_value hsome hkey,
      kind.shows_of_meaning hmeaning⟩

/-- The function without its name. -/
def bellNameless : Tree :=
  .object [(plainText "functions", .list [.object (bellMembers.drop 1)])]

/-- No item of the tree is written as a list. -/
theorem bellTree_objects (keys : List (String × Bool × Kind)) (items : List Tree) :
    ¬At kind bellTree (.record keys) (.list items) := by
  have hmembers : ∀ kind, ¬At kind (.object bellMembers) (.record keys) (.list items) := by
    rintro kind (_ | _ | ⟨hkey, hvalue, h⟩)
    obtain ⟨member, hmember, rfl⟩ := List.mem_map.mp hvalue
    have hmem := List.mem_of_mem_filter hmember
    simp only [bellMembers, List.mem_cons, List.not_mem_nil, or_false] at hmem
    rcases hmem with rfl | rfl | rfl <;> exact nomatch h
  rintro (_ | _ | ⟨hkey, hvalue, h⟩)
  obtain ⟨member, hmember, rfl⟩ := List.mem_map.mp hvalue
  obtain rfl := List.mem_singleton.mp (List.mem_of_mem_filter hmember)
  simp only [List.mem_cons, List.not_mem_nil, or_false, Prod.mk.injEq] at hkey
  -- The keys of an interface all have lists of items.
  rcases hkey with ⟨-, -, rfl⟩ | ⟨-, -, rfl⟩ | ⟨-, -, rfl⟩ | ⟨-, -, rfl⟩ | ⟨-, -, rfl⟩ <;>
  · obtain _ | ⟨hitem, h⟩ := h
    rw [List.mem_singleton.mp hitem] at h
    exact hmembers _ h

theorem read_strict_bell :
    (∃ problem, read (String.ofList (bellNameless.layout [])) = .error problem) ∧
      kind.Shows bellTree bell.toJson := by
  constructor
  · have hkey : ("functions", false, Kind.list Function.kind) ∈
        [("structs", false, .list Struct.kind), ("aliases", false, .list Alias.kind),
          ("callbacks", false, .list Callback.kind), ("enums", false, .list Enum.kind),
          ("functions", false, .list Function.kind)] := by simp
    have hat : At kind bellNameless Function.kind (.object (bellMembers.drop 1)) :=
      .value hkey (List.mem_singleton_self _) (.item (List.mem_singleton_self _) (.here _ _))
    have hflawed : Flawed [("name", true, .text), ("returnType", true, .text),
        ("params", false, .list Param.kind), ("description", true, .text)] (bellMembers.drop 1) :=
      .missing List.mem_cons_self (by decide)
    have hspells : bellNameless.Spells (String.ofList (bellNameless.layout [])).toList :=
      spells_text (by simp) bellNameless
    obtain ⟨problem, hproblem, -⟩ := (read_strict hspells).1 _ _ hat hflawed
    exact ⟨problem, hproblem⟩
  · have hread : read (String.ofList (bellTree.layout [])) = .ok bell := by decide +kernel
    exact ((read_strict (spells_text (by simp) bellTree)).2 bell hread).2 bellTree_objects

end Bindery.Interface
