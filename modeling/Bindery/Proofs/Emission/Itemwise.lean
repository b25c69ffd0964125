import Bindery.Emission
import Bindery.Proofs.Traversal

/-!
# A module is made item by item

The source of a module is its prologue, which is the line that names the module and the preamble of
the profile with an end of line, followed by the bodies of the items it declares, each body being
what the module of that item alone has behind the same prologue (`Item.HasBody`), and its summary is
the sum of the summaries of these modules (`emit_itemwise`). Ignored items leave no trace
but in the number of skipped ones: two interfaces that declare the same items have the same source,
whatever the ignored ones hold.

`Interface.declared` lists the items a profile keeps, kind by kind; `emit_eq_mapM` says that a
module is one traversal of this list.
-/

set_option autoImplicit false
set_option relaxedAutoImplicit false

namespace Bindery

open Traversal

/-- The interface that holds one item and nothing else. -/
def Interface.single : Item → Interface
  | .struct s => ⟨[s], [], [], [], []⟩
  | .typeAlias a => ⟨[], [a], [], [], []⟩
  | .callback c => ⟨[], [], [c], [], []⟩
  | .enum e => ⟨[], [], [], [e], []⟩
  | .function f => ⟨[], [], [], [], [f]⟩

/-- The items that a profile does not ignore: structures, aliases, callbacks, enumerations and
functions, each kind in the order of the interface. -/
def Interface.declared (profile : Profile) (interface : Interface) : List Item :=
  (interface.structs.filter fun s ↦ !profile.ignoresStruct s.name).map .struct ++
    (interface.aliases.filter fun a ↦ !profile.ignoresAlias a.name).map .typeAlias ++
    interface.callbacks.map .callback ++ interface.enums.map .enum ++
    interface.functions.map .function

/-- The number of structures and aliases that a profile ignores. -/
def Interface.ignoredCount (profile : Profile) (interface : Interface) : Nat :=
  interface.structs.countP (fun s ↦ profile.ignoresStruct s.name) +
    interface.aliases.countP fun a ↦ profile.ignoresAlias a.name

/-- The module of an item alone is the prologue, a blank line and this body. -/
def Item.HasBody (profile : Profile) (name : String) (item : Item) (body : String) : Prop :=
  ∃ alone, emit profile name (.single item) = .ok alone ∧
    alone.source = Emission.prologue profile name ++ "\n" ++ body

/-- The text of the lines of an item. -/
def Item.text (profile : Profile) (item : Item) : Except Fault String :=
  (item.lines profile).map Line.render

/-! ### The declared items -/

theorem items_single (item : Item) : (Interface.single item).items = [item] := by
  cases item <;> rfl

theorem length_items (interface : Interface) : interface.items.length = interface.size := by
  simp [Interface.items, Interface.size, Nat.add_assoc]

theorem filter_items (profile : Profile) (interface : Interface) :
    interface.items.filter (fun item ↦ !item.ignored profile) = interface.declared profile := by
  simp [Interface.items, Interface.declared, List.filter_map, Function.comp_def, Item.ignored]

theorem countP_items (profile : Profile) (interface : Interface) :
    interface.items.countP (Item.ignored profile) = interface.ignoredCount profile := by
  simp [Interface.items, Interface.ignoredCount, List.countP_map, Function.comp_def, Item.ignored]

theorem declared_single (profile : Profile) (item : Item) :
    (Interface.single item).declared profile = if item.ignored profile then [] else [item] := by
  rw [← filter_items, items_single, List.filter_singleton]
  cases item.ignored profile <;> rfl

theorem not_ignored_of_mem_declared {profile : Profile} {interface : Interface} {item : Item}
    (hitem : item ∈ interface.declared profile) : item.ignored profile = false := by
  rw [← filter_items, List.mem_filter] at hitem
  simpa using hitem.2

/-- A module is one traversal of its declared items. -/
theorem emit_eq_mapM (profile : Profile) (name : String) (interface : Interface) :
    emit profile name interface =
      ((interface.declared profile).mapM (Item.text profile)).map fun texts ↦
        ⟨Emission.assemble (Emission.prologue profile name) texts,
          .ofItems profile interface.items⟩ := by
  have hblock : Item.block profile = fun item ↦
      if item.ignored profile then .ok none else (item.text profile).map some := by
    funext item
    unfold Item.block Item.text
    split
    · rfl
    · cases item.lines profile <;> rfl
  rw [← filter_items, ← mapM_filterMap_id, ← hblock, emit]
  cases interface.items.mapM (Item.block profile) <;> rfl

/-! ### Summaries -/

namespace Summary

/-- The number of items that a summary counts. -/
def total (summary : Summary) : Nat :=
  summary.structs + summary.aliases + summary.callbacks + summary.enums + summary.functions +
    summary.skipped

theorem total_add (s t : Summary) : (s.add t).total = s.total + t.total := by
  simp only [total, add]
  omega

theorem ofItems_cons (profile : Profile) (item : Item) (items : List Item) :
    ofItems profile (item :: items) = (ofItem profile item).add (ofItems profile items) := rfl

theorem total_ofItem (profile : Profile) (item : Item) : (ofItem profile item).total = 1 := by
  unfold ofItem
  split
  · rfl
  · cases item <;> rfl

/-- Every item is counted once. -/
theorem total_ofItems (profile : Profile) (items : List Item) :
    (ofItems profile items).total = items.length := by
  induction items with
  | nil => rfl
  | cons item items ih =>
    rw [ofItems_cons, total_add, total_ofItem, ih, List.length_cons, Nat.add_comm]

theorem ofItems_singleton (profile : Profile) (item : Item) :
    ofItems profile [item] = ofItem profile item := by
  rw [ofItems_cons]
  rfl

/-- The ignored items of a list are skipped, and the summary holds no more of them. -/
theorem ofItems_eq (profile : Profile) (items : List Item) :
    ofItems profile items =
      { ofItems profile (items.filter fun item ↦ !item.ignored profile) with
        skipped := items.countP (Item.ignored profile) } := by
  induction items with
  | nil => rfl
  | cons item items ih =>
    rw [ofItems_cons, ih]
    cases hitem : item.ignored profile with
    | true =>
      rw [List.filter_cons_of_neg (by simp [hitem]), List.countP_cons_of_pos hitem]
      simp [ofItem, hitem, add, zero, Nat.add_comm]
    | false =>
      have hone : (one item).skipped = 0 := by cases item <;> rfl
      rw [List.filter_cons_of_pos (by simp [hitem]), List.countP_cons_of_neg (by simp [hitem]),
        ofItems_cons]
      simp [ofItem, hitem, add, hone]

end Summary

namespace Emission

theorem endLine_append (text : String) : endLine (text ++ "\n") = text ++ "\n" :=
  if_pos (by simp)

theorem endLine_of_unended {text : String} (htext : text.toList.getLast? ≠ some '\n') :
    endLine text = text ++ "\n" :=
  if_neg htext

theorem prologue_of_none {profile : Profile} (hpreamble : profile.preamble = none) (name : String) :
    prologue profile name = "module " ++ name ++ "\n" := by
  rw [prologue, hpreamble, String.append_empty]

theorem prologue_of_some {profile : Profile} {preamble : String}
    (hpreamble : profile.preamble = some preamble) (name : String) :
    prologue profile name = "module " ++ name ++ "\n" ++ endLine preamble := by
  rw [prologue, hpreamble]

theorem assemble_nil (prologue : String) : assemble prologue [] = prologue := rfl

theorem assemble_of_ne_nil (prologue : String) {blocks : List String} (hblocks : blocks ≠ []) :
    assemble prologue blocks = prologue ++ "\n" ++ "\n".intercalate blocks := by
  rw [assemble, if_neg (by simpa using hblocks)]

end Emission

/-! ### Items alone -/

/-- An item that is declared has a module of its own, with the text of its lines as body. -/
theorem emit_single_of_declared {profile : Profile} (name : String) {item : Item} {text : String}
    (hitem : item.ignored profile = false) (htext : item.text profile = .ok text) :
    emit profile name (.single item) =
      .ok ⟨Emission.prologue profile name ++ "\n" ++ text, .ofItem profile item⟩ := by
  rw [emit_eq_mapM, declared_single, if_neg (by simp [hitem]), List.mapM_cons, htext, items_single]
  change Except.ok (Emission.mk (Emission.assemble _ [text]) _) = _
  rw [Emission.assemble_of_ne_nil _ (by simp), String.intercalate_singleton,
    Summary.ofItems_singleton]

/-- The module of an ignored item is its prologue. -/
theorem emit_single_of_ignored {profile : Profile} (name : String) {item : Item}
    (hitem : item.ignored profile = true) :
    emit profile name (.single item) =
      .ok ⟨Emission.prologue profile name, .ofItem profile item⟩ := by
  rw [emit_eq_mapM, declared_single, if_pos hitem, items_single]
  rfl

/-- The summaries of the modules of some items add up to the summary of the items. -/
theorem exists_singles {profile : Profile} (name : String) :
    ∀ items : List Item,
      (∀ item ∈ items, item.ignored profile = false → ∃ text, item.text profile = .ok text) →
      ∃ modules, List.Forall₂ (fun item alone ↦ emit profile name (.single item) = .ok alone)
          items modules ∧
        Summary.ofItems profile items =
          modules.foldr (fun alone sum ↦ alone.summary.add sum) .zero := by
  intro items htexts
  induction items with
  | nil => exact ⟨[], .nil, rfl⟩
  | cons item items ih =>
    obtain ⟨modules, hmodules, hsum⟩ := ih fun other hother ↦ htexts other (by simp [hother])
    have halone : ∃ alone, emit profile name (.single item) = .ok alone ∧
        alone.summary = Summary.ofItem profile item := by
      cases hitem : item.ignored profile with
      | true => exact ⟨_, emit_single_of_ignored name hitem, rfl⟩
      | false =>
        obtain ⟨text, htext⟩ := htexts item (by simp) hitem
        exact ⟨_, emit_single_of_declared name hitem htext, rfl⟩
    obtain ⟨alone, halone, hsummary⟩ := halone
    refine ⟨alone :: modules, .cons halone hmodules, ?_⟩
    rw [Summary.ofItems_cons, List.foldr_cons, hsummary, hsum]

/-! ### The whole module -/

/-- What the traversal of the declared items gives when a module is made. -/
theorem exists_texts {profile : Profile} {name : String} {interface : Interface}
    {emission : Emission} (hemit : emit profile name interface = .ok emission) :
    ∃ texts, (interface.declared profile).mapM (Item.text profile) = .ok texts ∧
      emission = ⟨Emission.assemble (Emission.prologue profile name) texts,
        .ofItems profile interface.items⟩ := by
  rw [emit_eq_mapM] at hemit
  cases htexts : (interface.declared profile).mapM (Item.text profile) with
  | error fault =>
    rw [htexts] at hemit
    exact nomatch hemit
  | ok texts =>
    rw [htexts] at hemit
    exact ⟨texts, rfl, (Except.ok.inj hemit).symm⟩

/-- A module is made item by item: its source is the prologue and the bodies of the items it
declares, in order and with one end of line between them. The prologue is the line that names the
module, and behind it the preamble of the profile, if it has one, with an end of line unless it ends
in one. The summary adds up the summaries of the items alone, counts every item once and skips just
the ignored ones. Interfaces that differ in their ignored items alone have the same module but for
the number of skipped items. -/
theorem emit_itemwise {profile : Profile} {name : String} {interface : Interface}
    {emission : Emission} (hemit : emit profile name interface = .ok emission) :
    ((profile.preamble = none → Emission.prologue profile name = "module " ++ name ++ "\n") ∧
      (∀ text, profile.preamble = some (text ++ "\n") →
        Emission.prologue profile name = "module " ++ name ++ "\n" ++ (text ++ "\n")) ∧
      ∀ text, profile.preamble = some text → text.toList.getLast? ≠ some '\n' →
        Emission.prologue profile name = "module " ++ name ++ "\n" ++ (text ++ "\n")) ∧
    (∃ bodies, List.Forall₂ (Item.HasBody profile name) (interface.declared profile) bodies ∧
      emission.source =
        if interface.declared profile = [] then Emission.prologue profile name
        else Emission.prologue profile name ++ "\n" ++ "\n".intercalate bodies) ∧
    (∃ modules, List.Forall₂ (fun item alone ↦ emit profile name (.single item) = .ok alone)
        interface.items modules ∧
      emission.summary = modules.foldr (fun alone sum ↦ alone.summary.add sum) .zero) ∧
    emission.summary.total = interface.size ∧
    emission.summary.skipped = interface.ignoredCount profile ∧
    ∀ other : Interface, other.declared profile = interface.declared profile →
      emit profile name other = .ok ⟨emission.source,
        { emission.summary with skipped := other.ignoredCount profile }⟩ := by
  obtain ⟨texts, htraversal, rfl⟩ := exists_texts hemit
  have htexts := mapM_eq_ok_iff.mp htraversal
  refine ⟨⟨fun hnone ↦ Emission.prologue_of_none hnone name, fun text hsome ↦ ?_,
    fun text hsome hunended ↦ ?_⟩, ⟨texts, ?_, ?_⟩, ?_, ?_, ?_, ?_⟩
  · rw [Emission.prologue_of_some hsome, Emission.endLine_append]
  · rw [Emission.prologue_of_some hsome, Emission.endLine_of_unended hunended]
  · have hdeclared : List.Forall₂
        (fun item text ↦ item.ignored profile = false ∧ item.text profile = .ok text)
        (interface.declared profile) texts :=
      (List.forall₂_and_left _ _).mpr ⟨fun _ ↦ not_ignored_of_mem_declared, htexts⟩
    exact hdeclared.imp fun item text h ↦ ⟨_, emit_single_of_declared name h.1 h.2, rfl⟩
  · split_ifs with hnone
    · rw [hnone, List.forall₂_nil_left_iff] at htexts
      rw [htexts]
      exact Emission.assemble_nil _
    · refine Emission.assemble_of_ne_nil _ fun hempty ↦ hnone ?_
      rwa [hempty, List.forall₂_nil_right_iff] at htexts
  · refine exists_singles name interface.items fun item hitem hdeclared ↦ ?_
    have hmem : item ∈ interface.declared profile := by
      rw [← filter_items, List.mem_filter]
      exact ⟨hitem, by simp [hdeclared]⟩
    obtain ⟨text, -, htext⟩ := exists_ok_of_mem htraversal hmem
    exact ⟨text, htext⟩
  · exact (Summary.total_ofItems profile _).trans (length_items interface)
  · change (Summary.ofItems profile interface.items).skipped = _
    rw [Summary.ofItems_eq, countP_items]
  · intro other hother
    rw [emit_eq_mapM, hother, htraversal, Summary.ofItems_eq, filter_items, countP_items, hother,
      Summary.ofItems_eq profile interface.items, filter_items]
    rfl

/-- An interface of which the profile `raymath` ignores a structure, one of whose fields has no type,
and an alias. -/
def mixedInterface : Interface where
  structs :=
    [⟨"Vector2", "", [⟨"x", "fl-oat", ""⟩]⟩, ⟨"float3", "", [⟨"v", "float[3]", "components"⟩]⟩]
  aliases := [⟨"Quaternion", "Vector4", ""⟩]
  callbacks := []
  enums := [⟨"Axis", "", [⟨"AXIS_X", 0, "across"⟩]⟩]
  functions := [⟨"Clamp", "float", [⟨"value", "float"⟩], ""⟩]

/-- A profile that ignores a structure, and whose preamble has no end of line. -/
def unendedProfile : Profile := ⟨"shapes", ["Vector2"], [], [], some "import raylib", []⟩

/-- The prologue of `raymath` has a preamble that ends its line, that of `unendedProfile` one that
does not, and that of `raylib` has none. -/
theorem emit_itemwise_mixedInterface :
    (∃ emission, emit .raymath "raymath" mixedInterface = .ok emission ∧
      (∃ bodies : List String, bodies.length = 3 ∧ emission.source =
        "module raymath\nimport raylib \x7b Vector2, Vector3, Vector4, Matrix \x7d\n" ++ "\n" ++
          "\n".intercalate bodies) ∧
      emission.summary.total = 5 ∧ emission.summary.skipped = 2 ∧
      emit .raymath "raymath" { mixedInterface with structs := mixedInterface.structs.tail } =
        .ok ⟨emission.source, { emission.summary with skipped := 1 }⟩) ∧
    (∃ emission, emit unendedProfile "shapes" (.single (.struct ⟨"Vector2", "", []⟩)) = .ok emission ∧
      emission.source = "module shapes\nimport raylib\n" ∧ emission.summary.skipped = 1) ∧
    ∃ emission, emit .raylib "raylib" ⟨[], [], [], [], []⟩ = .ok emission ∧
      emission.source = "module raylib\n" := by
  refine ⟨?_, ?_, ?_⟩
  · have hsome : ∃ emission, emit .raymath "raymath" mixedInterface = .ok emission := ⟨_, rfl⟩
    obtain ⟨emission, hemit⟩ := hsome
    obtain ⟨⟨-, hended, -⟩, ⟨bodies, hbodies, hsource⟩, -, htotal, hskipped, hother⟩ :=
      emit_itemwise hemit
    have hprologue := hended "import raylib \x7b Vector2, Vector3, Vector4, Matrix \x7d" rfl
    rw [if_neg (by decide), hprologue] at hsource
    exact ⟨emission, hemit, ⟨bodies, hbodies.length_eq.symm, hsource⟩, htotal, hskipped,
      hother _ rfl⟩
  · have hsome : ∃ emission, emit unendedProfile "shapes" (.single (.struct ⟨"Vector2", "", []⟩)) =
        .ok emission := ⟨_, rfl⟩
    obtain ⟨emission, hemit⟩ := hsome
    obtain ⟨⟨-, -, hunended⟩, ⟨bodies, -, hsource⟩, -, -, hskipped, -⟩ := emit_itemwise hemit
    rw [if_pos (by rfl), hunended "import raylib" rfl (by decide)] at hsource
    exact ⟨emission, hemit, hsource, hskipped⟩
  · have hsome : ∃ emission, emit .raylib "raylib" ⟨[], [], [], [], []⟩ = .ok emission := ⟨_, rfl⟩
    obtain ⟨emission, hemit⟩ := hsome
    obtain ⟨⟨hnone, -, -⟩, ⟨bodies, -, hsource⟩, -⟩ := emit_itemwise hemit
    rw [if_pos (by rfl), hnone rfl] at hsource
    exact ⟨emission, hemit, hsource⟩

end Bindery
