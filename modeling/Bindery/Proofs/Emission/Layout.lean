import Bindery.Proofs.Emission.Itemwise
import Bindery.Proofs.Text.Pieces

/-!
# The lines of a module

Behind its prologue a module is a sequence of lines, with an empty line in front of the lines of
every item (`toList_assemble`). When no line of an item is empty and none holds an end of line
(`Line.Proper`), two modules with one source and one prologue have the same lines, item by item
(`blocks_eq_of_source_eq`). The text of an item stands behind the module of the items before it
(`exists_source_of_item`).
-/

set_option autoImplicit false
set_option relaxedAutoImplicit false

namespace Bindery

open Text Traversal

/-- The characters of a line. -/
def Line.chars (line : Line) : List Char := line.text.toList

/-- A line that shows as one line, and not as an empty one. -/
def Line.Proper (line : Line) : Prop := line.chars ≠ [] ∧ '\n' ∉ line.chars

/-- What a description adds to a line of code. -/
def Line.note (description : String) : String :=
  if description = "" then "" else " // " ++ description

theorem Line.text_described (code description : String) :
    (described code description).text = code ++ note description := by
  unfold described note
  split_ifs
  · exact String.append_empty.symm
  · exact String.append_assoc

theorem Line.render_append (first second : List Line) :
    render (first ++ second) = render first ++ render second := by
  rw [render, List.map_append, String.join_append]
  rfl

theorem Line.render_cons (line : Line) (lines : List Line) :
    render (line :: lines) = line.text ++ "\n" ++ render lines := by
  rw [render, List.map_cons, String.join_cons]
  rfl

theorem toList_render (lines : List Line) :
    (Line.render lines).toList = (lines.map Line.chars).flatMap fun line ↦ line ++ ['\n'] := by
  rw [Line.render, String.toList_join, List.flatMap_map, List.flatMap_map]
  simp [Line.chars]

namespace Emission

theorem toList_commaList (texts : List String) :
    (commaList texts).toList = [',', ' '].intercalate (texts.map String.toList) :=
  String.toList_intercalate

theorem notMem_commaList {c : Char} {texts : List String} (hc : c ∉ [',', ' '])
    (htexts : ∀ text ∈ texts, c ∉ text.toList) : c ∉ (commaList texts).toList := by
  rw [toList_commaList]
  refine notMem_intercalate hc fun piece hpiece ↦ ?_
  obtain ⟨text, htext, rfl⟩ := List.mem_map.mp hpiece
  exact htexts text htext

/-- Behind the prologue, every block has an end of line in front of it. -/
theorem assemble_eq_join (prologue : String) (texts : List String) :
    assemble prologue texts = prologue ++ String.join (texts.map fun text ↦ "\n" ++ text) := by
  have hjoin : ∀ (text : String) (rest : List String), "\n" ++ "\n".intercalate (text :: rest) =
      String.join ((text :: rest).map fun text ↦ "\n" ++ text) := by
    intro text rest
    induction rest generalizing text with
    | nil => rw [String.intercalate_singleton, List.map_singleton, String.join_cons, String.join_nil,
        String.append_empty]
    | cons next rest ih =>
      rw [String.intercalate_cons_cons, List.map_cons, String.join_cons, ← ih next,
        String.append_assoc, String.append_assoc]
  cases texts with
  | nil => exact String.append_empty.symm
  | cons text rest =>
    rw [assemble_of_ne_nil _ (List.cons_ne_nil text rest), String.append_assoc, hjoin]

/-- Behind the prologue, an empty line and the lines of an item follow each other. -/
theorem toList_assemble (prologue : String) (blocks : List (List Line)) :
    (assemble prologue (blocks.map Line.render)).toList = prologue.toList ++
      (blocks.flatMap fun lines ↦ [] :: lines.map Line.chars).flatMap
        fun line ↦ line ++ ['\n'] := by
  rw [assemble_eq_join, String.toList_append, String.toList_join, List.map_map, List.flatMap_map,
    List.flatMap_assoc]
  refine congrArg (prologue.toList ++ ·) (List.flatMap_congr fun lines _ ↦ ?_)
  rw [List.flatMap_cons, ← toList_render]
  exact String.toList_append

/-- Sources with one prologue and proper lines have the same lines for each of their items. -/
theorem blocks_eq_of_source_eq {prologue : String} {as bs : List (List Line)}
    (has : ∀ lines ∈ as, ∀ line ∈ lines, line.Proper)
    (hbs : ∀ lines ∈ bs, ∀ line ∈ lines, line.Proper)
    (h : assemble prologue (as.map Line.render) = assemble prologue (bs.map Line.render)) :
    as.map (fun lines ↦ lines.map Line.chars) = bs.map fun lines ↦ lines.map Line.chars := by
  have hnewline : ∀ blocks : List (List Line), (∀ lines ∈ blocks, ∀ line ∈ lines, line.Proper) →
      ∀ line ∈ blocks.flatMap fun lines ↦ [] :: lines.map Line.chars, '\n' ∉ line := by
    intro blocks hblocks line hline
    obtain ⟨lines, hlines, hline⟩ := List.mem_flatMap.mp hline
    rcases List.mem_cons.mp hline with rfl | hline
    · exact List.not_mem_nil
    · obtain ⟨shown, hshown, rfl⟩ := List.mem_map.mp hline
      exact (hblocks lines hlines shown hshown).2
  have hempty : ∀ blocks : List (List Line), (∀ lines ∈ blocks, ∀ line ∈ lines, line.Proper) →
      ∀ block ∈ blocks.map fun lines ↦ lines.map Line.chars, [] ∉ block := by
    intro blocks hblocks block hblock hnil
    obtain ⟨lines, hlines, rfl⟩ := List.mem_map.mp hblock
    obtain ⟨line, hline, hnil⟩ := List.mem_map.mp hnil
    exact (hblocks lines hlines line hline).1 hnil
  have hchars := congrArg String.toList h
  rw [toList_assemble, toList_assemble] at hchars
  have hlines := flatMap_ended_inj (hnewline as has) (hnewline bs hbs)
    (List.append_cancel_left hchars)
  refine flatMap_begun_inj (hempty as has) (hempty bs hbs) ?_
  rwa [List.flatMap_map, List.flatMap_map]

end Emission

/-- A module comes from lines for each of its declared items. -/
theorem exists_lines {profile : Profile} {name : String} {interface : Interface}
    {emission : Emission} (hemit : emit profile name interface = .ok emission) :
    ∃ blocks, List.Forall₂ (fun item lines ↦ Item.lines profile item = .ok lines)
        (interface.declared profile) blocks ∧
      emission.source =
        Emission.assemble (Emission.prologue profile name) (blocks.map Line.render) := by
  obtain ⟨texts, htexts, rfl⟩ := exists_texts hemit
  have hrender : Item.text profile = fun item ↦ (item.lines profile).map Line.render := rfl
  rw [hrender, mapM_map] at htexts
  obtain ⟨blocks, hblocks, rfl⟩ := map_eq_ok_iff.mp htexts
  exact ⟨blocks, mapM_eq_ok_iff.mp hblocks, rfl⟩

/-- A module starts with the module of what is declared before an item, and the text of the item. -/
theorem exists_source_of_item {profile : Profile} {name : String} {interface before : Interface}
    {emission : Emission} {item : Item} {later : List Item}
    (hdeclared : interface.declared profile = before.declared profile ++ item :: later)
    (hemit : emit profile name interface = .ok emission) :
    ∃ start text rest, emit profile name before = .ok start ∧ item.text profile = .ok text ∧
      emission.source = start.source ++ "\n" ++ text ++ rest := by
  obtain ⟨texts, htexts, rfl⟩ := exists_texts hemit
  rw [hdeclared, List.mapM_append, bind_eq_ok_iff] at htexts
  obtain ⟨front, hfront, htexts⟩ := htexts
  obtain ⟨back, hback, htexts⟩ := bind_eq_ok_iff.mp htexts
  obtain rfl := Except.ok.inj htexts
  rw [List.mapM_cons, bind_eq_ok_iff] at hback
  obtain ⟨text, htext, hback⟩ := hback
  obtain ⟨last, -, hback⟩ := bind_eq_ok_iff.mp hback
  obtain rfl := Except.ok.inj hback
  have hstart := emit_eq_mapM profile name before
  rw [hfront] at hstart
  refine ⟨_, text, String.join (last.map fun text ↦ "\n" ++ text), hstart, htext, ?_⟩
  simp only [Emission.assemble_eq_join, List.map_append, List.map_cons, String.join_append,
    String.join_cons, String.append_assoc]

end Bindery
