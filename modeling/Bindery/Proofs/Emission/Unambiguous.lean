import Bindery.Proofs.Binding.Passing
import Bindery.Proofs.Emission.Outline

/-!
# A module shows its items

Nothing that a module of the library says about its items is lost in its source or taken for
something else. The lines of an item whose names are identifiers and whose descriptions are on one
line give the outline of the item back (`Item.Shown`), so that two interfaces with one source have
the same outlines (`outlines_eq_of_source_eq`).
-/

set_option autoImplicit false
set_option relaxedAutoImplicit false

namespace Bindery

open Text Identifier Traversal CType

/-- The names in an item: its own, and those of its fields, parameters and enumerators. -/
def Item.names : Item → List String
  | .struct s => s.name :: s.fields.map (·.name)
  | .typeAlias a => [a.name]
  | .callback c => c.name :: c.params.map (·.name)
  | .enum e => e.name :: e.values.map (·.name)
  | .function f => f.name :: f.params.map (·.name)

/-- The descriptions in an item: its own, and those of its fields and enumerators. -/
def Item.descriptions : Item → List String
  | .struct s => s.description :: s.fields.map (·.description)
  | .typeAlias a => [a.description]
  | .callback c => [c.description]
  | .enum e => e.description :: e.values.map (·.description)
  | .function f => [f.description]

/-- All names of an item are identifiers, and all its descriptions are on one line. -/
structure Item.Legible (item : Item) : Prop where
  isIdentifier : ∀ name ∈ item.names, IsIdentifier name.toList
  newline_notMem : ∀ description ∈ item.descriptions, '\n' ∉ description.toList

instance (item : Item) : Decidable item.Legible :=
  decidable_of_iff ((∀ name ∈ item.names, IsIdentifier name.toList) ∧
    ∀ description ∈ item.descriptions, '\n' ∉ description.toList)
    ⟨fun h ↦ ⟨h.1, h.2⟩, fun h ↦ ⟨h.isIdentifier, h.newline_notMem⟩⟩

/-- All items of an interface are legible. -/
def Interface.Legible (interface : Interface) : Prop := ∀ item ∈ interface.items, item.Legible

instance (interface : Interface) : Decidable interface.Legible :=
  inferInstanceAs (Decidable (∀ item ∈ interface.items, item.Legible))

/-- The lines of an item are proper, and its outline can be read off them. -/
structure Item.Shown (item : Item) (lines : List Line) : Prop where
  proper : ∀ line ∈ lines, line.Proper
  read : Outline.read (lines.map Line.chars) = some item.outline

theorem Item.Legible.word {item : Item} (hitem : item.Legible) {name : String}
    (hname : name ∈ item.names) : Word name.toList :=
  (hitem.isIdentifier name hname).word

/-! ### Lines -/

theorem chars_code (text : String) : (Line.code text).chars = text.toList := rfl

theorem proper_of_mem_remark {indent description : String} (hindent : '\n' ∉ indent.toList)
    (hdescription : '\n' ∉ description.toList) :
    ∀ line ∈ Line.remark indent description, line.Proper := by
  intro line hline
  unfold Line.remark at hline
  split_ifs at hline
  · exact nomatch hline
  · rw [List.mem_singleton.mp hline]
    simp [Line.Proper, Line.chars, Line.text, hindent, hdescription]

/-- A type is behind what it is the type of, if there is one at all. -/
theorem exists_withType (declaration : String) {type : String} (htype : TypeText type) :
    ∃ rest, (Emission.withType declaration type).toList = declaration.toList ++ rest ∧
      '\n' ∉ rest := by
  unfold Emission.withType
  split_ifs
  · exact ⟨[], (List.append_nil _).symm, List.not_mem_nil⟩
  · exact ⟨' ' :: type.toList, by simp, by simp [htype.newline_notMem]⟩

/-! ### Structures -/

theorem fieldLines_shown {fields : List Interface.Field} {blocks : List (List Line)}
    (hnames : ∀ field ∈ fields, Word field.name.toList)
    (hdescriptions : ∀ field ∈ fields, '\n' ∉ field.description.toList)
    (h : List.Forall₂ (fun field lines ↦ Emission.fieldLines .raylib field = .ok lines)
      fields blocks) :
    (∀ line ∈ blocks.flatten, line.Proper) ∧
      Outline.fieldRemarks "" (blocks.flatten.map Line.chars) = fields.map (·.description) := by
  induction h with
  | nil => exact ⟨by simp, rfl⟩
  | @cons field lines fields blocks hfield _ ih =>
    obtain ⟨hproper, hremarks⟩ := ih (fun f hf ↦ hnames f (List.mem_cons_of_mem field hf))
      fun f hf ↦ hdescriptions f (List.mem_cons_of_mem field hf)
    have hname := (hnames field List.mem_cons_self).snake
    have hdescription := hdescriptions field List.mem_cons_self
    obtain ⟨type, htype, hlines⟩ := bind_eq_ok_iff.mp hfield
    obtain rfl := Except.ok.inj hlines
    have hnewline := (typeText_of_builtin (by decide) htype).newline_notMem
    have hnameLine : '\n' ∉ snake field.name.toList := hname.notMem rfl
    rw [List.flatten_cons]
    constructor
    · rw [List.forall_mem_append, List.forall_mem_append]
      refine ⟨⟨proper_of_mem_remark (by decide) hdescription, fun line hline ↦ ?_⟩, hproper⟩
      rw [List.mem_singleton.mp hline]
      simp [Line.Proper, chars_code, snakeCase, hnewline, hnameLine]
    · have hchars : (Line.code ("\t" ++ snakeCase field.name ++ " " ++ type)).chars =
          "\t".toList ++ (snake field.name.toList ++ (" ".toList ++ type.toList)) := by
        simp [chars_code, snakeCase]
      rw [List.map_append, List.map_append, List.map_singleton, List.append_assoc,
        List.singleton_append, hchars, Outline.fieldRemarks_append hname, hremarks, List.map_cons]

theorem shown_struct {s : Interface.Struct} {lines : List Line} (hs : (Item.struct s).Legible)
    (h : Emission.structLines .raylib s = .ok lines) : (Item.struct s).Shown lines := by
  obtain ⟨blocks, hblocks, h⟩ := bind_eq_ok_iff.mp h
  obtain rfl := Except.ok.inj h
  have hname : Word s.name.toList := hs.word List.mem_cons_self
  have hnewline : '\n' ∉ s.name.toList := hname.notMem rfl
  have hdescription := hs.newline_notMem s.description List.mem_cons_self
  obtain ⟨hproper, hremarks⟩ := fieldLines_shown
    (fun f hf ↦ hs.word (List.mem_cons_of_mem _ (List.mem_map_of_mem hf)))
    (fun f hf ↦ hs.newline_notMem f.description (List.mem_cons_of_mem _ (List.mem_map_of_mem hf)))
    (mapM_eq_ok_iff.mp hblocks)
  constructor
  · simp only [List.forall_mem_append, List.forall_mem_singleton]
    refine ⟨⟨⟨⟨?_, proper_of_mem_remark (by decide) hdescription⟩, ?_⟩, hproper⟩, ?_⟩
    · simp [Line.Proper, chars_code, Profile.rename, Profile.raylib, hnewline]
    · simp [Line.Proper, chars_code, hnewline]
    · simp [Line.Proper, chars_code]
  · have hread := Outline.read_type "" (s.name.toList ++ (" = C.".toList ++ s.name.toList))
      ((Line.remark "" s.description).map Line.chars ++
        ("pub struct C.".toList ++ (s.name.toList ++ " \x7b".toList)) ::
          (blocks.flatten.map Line.chars ++ ["\x7d".toList]))
    rw [Outline.ofType_struct hname (by simp [isWordChar_space]) rfl, String.ofList_toList,
      hremarks] at hread
    simpa [chars_code, Profile.rename, Profile.raylib, Line.remark, Item.outline] using hread

/-! ### Aliases, callbacks and enumerations -/

theorem ofText_of_aliasTarget {definition : Interface.Alias} {type : CType}
    (h : Emission.aliasTarget definition = .ok type) : ofText definition.type = .ok type := by
  obtain ⟨read, hread, h⟩ := bind_eq_ok_iff.mp h
  split_ifs at h
  · exact nomatch h
  · obtain rfl := Except.ok.inj h
    exact hread

theorem shown_alias {a : Interface.Alias} {lines : List Line} (ha : (Item.typeAlias a).Legible)
    (h : Emission.aliasLines .raylib a = .ok lines) : (Item.typeAlias a).Shown lines := by
  obtain ⟨type, htype, h⟩ := bind_eq_ok_iff.mp h
  obtain rfl := Except.ok.inj h
  have hname : Word a.name.toList := ha.word List.mem_cons_self
  have hnewline : '\n' ∉ a.name.toList := hname.notMem rfl
  have hdescription := ha.newline_notMem a.description List.mem_cons_self
  have hbase := (typeText_of_ofText (ofText_of_aliasTarget htype)).1.newline_notMem
  constructor
  · rw [List.forall_mem_append, List.forall_mem_singleton]
    refine ⟨proper_of_mem_remark (by decide) hdescription, ?_⟩
    simp [Line.Proper, chars_code, Profile.rename, Profile.raylib, hnewline, hbase]
  · have hread := Outline.read_type a.description
      (a.name.toList ++ (" = C.".toList ++ type.base.toList)) []
    rw [Outline.ofType_alias hname, String.ofList_toList] at hread
    simpa [chars_code, Profile.rename, Profile.raylib, Line.remark, Item.outline] using hread

/-- A parameter shows as a text of words and marks. -/
theorem typeText_param {name type : String} (hname : Word name.toList) (htype : TypeText type) :
    name ++ " " ++ type ≠ "" ∧ TypeText (name ++ " " ++ type) := by
  refine ⟨fun h ↦ hname.1 ?_, ((typeText_of_word hname).append typeText_space).append htype⟩
  have hempty := congrArg String.toList h
  simp at hempty

theorem typeText_of_callbackParams {params : List Interface.Param} {texts : List String}
    {callback : String} (hnames : ∀ param ∈ params, Word param.name.toList)
    (h : params.mapM (Emission.callbackParam .raylib callback) = .ok texts) :
    ∀ text ∈ texts, text ≠ "" ∧ TypeText text := by
  intro text htext
  obtain ⟨param, hparam, h⟩ := exists_mem_of_ok h htext
  obtain ⟨type, htype, h⟩ := bind_eq_ok_iff.mp h
  obtain rfl := Except.ok.inj h
  exact typeText_param (word_snakeCase (hnames param hparam))
    (typeText_of_builtin (by decide) htype)

theorem shown_callback {c : Interface.Callback} {lines : List Line}
    (hc : (Item.callback c).Legible) (h : Emission.callbackLines .raylib c = .ok lines) :
    (Item.callback c).Shown lines := by
  obtain ⟨params, hparams, h⟩ := bind_eq_ok_iff.mp h
  obtain ⟨type, htype, h⟩ := bind_eq_ok_iff.mp h
  obtain rfl := Except.ok.inj h
  have hname : Word c.name.toList := hc.word List.mem_cons_self
  have hnewline : '\n' ∉ c.name.toList := hname.notMem rfl
  have hdescription := hc.newline_notMem c.description List.mem_cons_self
  have htexts := typeText_of_callbackParams
    (fun p hp ↦ hc.word (List.mem_cons_of_mem _ (List.mem_map_of_mem hp)))
    hparams
  have hcomma := Emission.notMem_commaList (by decide) fun t ht ↦ (htexts t ht).2.newline_notMem
  obtain ⟨rest, hrest, hrestLine⟩ := exists_withType
    ("pub type " ++ c.name ++ " = fn (" ++ Emission.commaList params ++ ")")
    (typeText_of_builtin (by decide) htype)
  constructor
  · rw [List.forall_mem_append, List.forall_mem_singleton]
    refine ⟨proper_of_mem_remark (by decide) hdescription, ?_⟩
    simp [Line.Proper, chars_code, hrest, hnewline, hcomma, hrestLine]
  · have hread := Outline.read_type c.description (c.name.toList ++ (" = fn ".toList ++
      ([] ++ '(' :: ((Emission.commaList params).toList ++ ')' :: rest)))) []
    rw [Outline.ofType_callback hname, String.ofList_toList,
      Outline.arity_parenthesized rest List.not_mem_nil (fun t ht ↦ (htexts t ht).1)
        (fun t ht ↦ (htexts t ht).2), length_of_mapM hparams] at hread
    simpa [chars_code, hrest, Line.remark, Item.outline] using hread

theorem shown_enum {e : Interface.Enum} (he : (Item.enum e).Legible) :
    (Item.enum e).Shown (Emission.enumLines e) := by
  have hname : Word e.name.toList := he.word List.mem_cons_self
  have hnewline : '\n' ∉ e.name.toList := hname.notMem rfl
  have hdescription := he.newline_notMem e.description List.mem_cons_self
  have hvalues : ∀ v ∈ e.values, Word v.name.toList ∧ '\n' ∉ v.description.toList := fun v hv ↦
    ⟨he.word (List.mem_cons_of_mem _ (List.mem_map_of_mem hv)),
      he.newline_notMem v.description (List.mem_cons_of_mem _ (List.mem_map_of_mem hv))⟩
  constructor
  · unfold Emission.enumLines
    simp only [List.forall_mem_append, List.forall_mem_singleton, List.forall_mem_map]
    refine ⟨⟨⟨proper_of_mem_remark (by decide) hdescription, ?_⟩, fun v hv ↦ ?_⟩, ?_⟩
    · simp [Line.Proper, chars_code, hnewline]
    · obtain ⟨hword, hline⟩ := hvalues v hv
      have hvalue := notMem_toString v.value.toInt (c := '\n') rfl (by decide)
      rw [Int.toString_eq_repr] at hvalue
      have hlower : '\n' ∉ lowercase v.name.toList := hword.lowercase.notMem rfl
      unfold Emission.enumeratorLine Line.described
      split_ifs
      · simp [Line.Proper, chars_code, hlower, hvalue]
      · simp [Line.Proper, Line.chars, Line.text, hlower, hvalue, hline]
    · simp [Line.Proper, chars_code]
  · have hread := Outline.read_enum e.description (e.name.toList ++ " \x7b".toList)
      ((e.values.map fun v ↦ (Emission.enumeratorLine v).chars) ++ ["\x7d".toList])
    have houtline : Outline.ofEnum e.description (e.name.toList ++ " \x7b".toList)
        ((e.values.map fun v ↦ (Emission.enumeratorLine v).chars) ++ ["\x7d".toList]) =
          (Item.enum e).outline := by
      rw [Outline.ofEnum, Outline.name_append hname (by simp [isWordChar_space]),
        String.ofList_toList, List.dropLast_concat, List.map_map, Item.outline]
      refine congrArg _ (List.map_congr_left fun v hv ↦ ?_)
      exact Outline.enumerator_line (hvalues v hv).1.lowercase v.value.toInt v.description
    rw [houtline] at hread
    simpa [Emission.enumLines, chars_code, Line.remark, Function.comp_def] using hread

/-! ### Functions -/

/-- What the lines of a binding need of its parts. -/
structure Binding.Sound (function : Interface.Function) (binding : Binding) : Prop where
  symbol : binding.symbol = function.name
  description : binding.description = function.description
  length_params : binding.params.length = function.params.length
  name : Word binding.name.toList
  rawReturn : TypeText binding.rawReturn
  param : ∀ param ∈ binding.params, Word param.name.toList ∧ TypeText param.rawType

theorem sound_ofFunction {f : Interface.Function} {binding : Binding}
    (hf : (Item.function f).Legible)
    (h : Binding.ofFunction Profile.raylib.variadics f = .ok binding) :
    binding.Sound f := by
  obtain ⟨rawReturn, params, hreturn, hparams, rfl⟩ := Binding.ofFunction_eq_ok_iff.mp h
  have hnames : ∀ param ∈ f.params, Word param.name.toList := fun p hp ↦
    hf.word (List.mem_cons_of_mem _ (List.mem_map_of_mem hp))
  have hname := word_snakeCase (hf.word (List.mem_cons_self : f.name ∈ _))
  refine ⟨rfl, rfl, hparams.length_eq.symm, hname, typeText_of_builtin (by decide) hreturn,
    fun p hp ↦ ?_⟩
  obtain ⟨param, hparam, rawType, htype, rfl⟩ := exists_of_mem_right hparams hp
  exact ⟨word_snakeCase (hnames param hparam), typeText_of_builtin (by decide) htype⟩

theorem typeText_publicText : TypeText Binding.publicText := by decide

theorem typeText_publicType {param : Binding.Param} (hparam : TypeText param.rawType) :
    TypeText param.publicType := by
  unfold Binding.Param.publicType
  split
  · exact typeText_publicText
  · exact hparam
  · exact hparam

theorem typeText_publicReturn {binding : Binding} (hreturn : TypeText binding.rawReturn) :
    TypeText binding.publicReturn := by
  unfold Binding.publicReturn
  split
  · exact typeText_publicText
  · exact hreturn
  · exact hreturn

theorem newline_notMem_rawCall {f : Interface.Function} {binding : Binding}
    (hf : (Item.function f).Legible) (hb : binding.Sound f) : '\n' ∉ binding.rawCall.toList := by
  have hsymbol : '\n' ∉ binding.symbol.toList := by
    rw [hb.symbol]
    exact (hf.word List.mem_cons_self).notMem rfl
  have harguments : '\n' ∉ (Emission.commaList (binding.params.map (·.argument))).toList := by
    refine Emission.notMem_commaList (by decide) fun text htext ↦ ?_
    obtain ⟨param, hparam, rfl⟩ := List.mem_map.mp htext
    have hname : '\n' ∉ param.name.toList := (hb.param param hparam).1.notMem rfl
    unfold Binding.Param.argument
    split
    · exact hname
    · simp [hname]
    · simp [hname]
  change '\n' ∉ ("C." ++ binding.symbol ++ "(" ++
    Emission.commaList (binding.params.map (·.argument)) ++ ")").toList
  simp [hsymbol, harguments]

theorem proper_of_mem_wrapperBody {binding : Binding} (hcall : '\n' ∉ binding.rawCall.toList) :
    ∀ line ∈ Emission.wrapperBody binding, line.Proper := by
  unfold Emission.wrapperBody
  split
  · simp [Line.Proper, chars_code, hcall]
  · simp [Line.Proper, chars_code, hcall]
  · simp [Line.Proper, chars_code, hcall]

theorem shown_binding {f : Interface.Function} {binding : Binding}
    (hf : (Item.function f).Legible) (hb : binding.Sound f) :
    (Item.function f).Shown (Emission.bindingLines binding) := by
  have hname : Word f.name.toList := hf.word List.mem_cons_self
  have hsymbol : '\n' ∉ f.name.toList := hname.notMem rfl
  have hwrapper : '\n' ∉ binding.name.toList := hb.name.notMem rfl
  have hdescription := hf.newline_notMem f.description List.mem_cons_self
  have hparams : ∀ text ∈ binding.params.map (fun param ↦ param.name ++ " " ++ param.publicType),
      text ≠ "" ∧ TypeText text := by
    intro text htext
    obtain ⟨param, hparam, rfl⟩ := List.mem_map.mp htext
    obtain ⟨hword, htype⟩ := hb.param param hparam
    exact typeText_param hword (typeText_publicType htype)
  have hcomma := Emission.notMem_commaList (by decide) fun t ht ↦ (hparams t ht).2.newline_notMem
  have hrawComma : '\n' ∉ (Emission.commaList (binding.params.map (·.rawType))).toList := by
    refine Emission.notMem_commaList (by decide) fun text htext ↦ ?_
    obtain ⟨param, hparam, rfl⟩ := List.mem_map.mp htext
    exact (hb.param param hparam).2.newline_notMem
  obtain ⟨rawRest, hraw, hrawLine⟩ := exists_withType
    ("fn C." ++ f.name ++ "(" ++ Emission.commaList (binding.params.map (·.rawType)) ++ ")")
    hb.rawReturn
  obtain ⟨rest, hhead, hrestLine⟩ := exists_withType
    ("pub fn " ++ binding.name ++ "(" ++ Emission.commaList
      (binding.params.map fun param ↦ param.name ++ " " ++ param.publicType) ++ ")")
    (typeText_publicReturn hb.rawReturn)
  constructor
  · unfold Emission.bindingLines Emission.rawDeclaration Emission.wrapperHead
    rw [hb.symbol, hb.description]
    simp only [List.forall_mem_append, List.forall_mem_cons]
    refine ⟨⟨⟨⟨?_, proper_of_mem_remark (by decide) hdescription⟩, ?_, ?_⟩,
      proper_of_mem_wrapperBody (newline_notMem_rawCall hf hb)⟩, ?_⟩
    · simp [Line.Proper, chars_code, hraw, hsymbol, hrawComma, hrawLine]
    · simp [Line.Proper, chars_code]
    · simp [Line.Proper, chars_code, hhead, hwrapper, hcomma, hrestLine]
    · simp [Line.Proper, chars_code]
  · have hopen : '(' ∉ "pub fn ".toList ++ binding.name.toList := by
      have hword : '(' ∉ binding.name.toList := hb.name.notMem rfl
      simp [hword]
    have harity := Outline.arity_parenthesized (rest ++ " \x7b".toList) hopen
      (fun t ht ↦ (hparams t ht).1) fun t ht ↦ (hparams t ht).2
    rw [List.length_map, hb.length_params] at harity
    have hread := Outline.read_function (f.name.toList ++ '(' ::
        ((Emission.commaList (binding.params.map (·.rawType))).toList ++ ')' :: rawRest))
      ((Line.remark "" f.description).map Line.chars ++ "@[inline]".toList ::
        ("pub fn ".toList ++ binding.name.toList ++ '(' :: ((Emission.commaList
          (binding.params.map fun param ↦ param.name ++ " " ++ param.publicType)).toList ++
            ')' :: (rest ++ " \x7b".toList))) ::
        ((Emission.wrapperBody binding).map Line.chars ++ ["\x7d".toList]))
    rw [Outline.ofFunction_append hname (by simp [isWordChar_parenthesis]) rfl,
      String.ofList_toList, harity] at hread
    unfold Emission.bindingLines Emission.rawDeclaration Emission.wrapperHead
    rw [hb.symbol, hb.description]
    simpa [chars_code, hraw, hhead, Line.remark, Item.outline] using hread

/-! ### Modules -/

/-- The lines of a legible item show its outline. -/
theorem shown_of_lines {item : Item} {lines : List Line} (hitem : item.Legible)
    (h : item.lines .raylib = .ok lines) : item.Shown lines := by
  cases item with
  | struct s => exact shown_struct hitem h
  | typeAlias a => exact shown_alias hitem h
  | callback c => exact shown_callback hitem h
  | enum e =>
    obtain rfl := Except.ok.inj h
    exact shown_enum hitem
  | function f =>
    obtain ⟨binding, hbinding, rfl⟩ := map_eq_ok_iff.mp h
    exact shown_binding hitem (sound_ofFunction hitem hbinding)

theorem declared_raylib (interface : Interface) :
    interface.declared .raylib = interface.items := by
  rw [← filter_items, List.filter_eq_self]
  intro item _
  cases item <;> rfl

/-- The outlines of the items of a module can be read off its blocks. -/
theorem map_read {items : List Item} {blocks : List (List Line)}
    (hitems : ∀ item ∈ items, item.Legible)
    (h : List.Forall₂ (fun item lines ↦ Item.lines .raylib item = .ok lines) items blocks) :
    (blocks.map fun lines ↦ lines.map Line.chars).map Outline.read =
      (items.map Item.outline).map some := by
  induction h with
  | nil => rfl
  | @cons item lines items blocks hlines _ ih =>
    have hshown := shown_of_lines (hitems item List.mem_cons_self) hlines
    rw [List.map_cons, List.map_cons, hshown.read,
      ih fun other hother ↦ hitems other (List.mem_cons_of_mem item hother)]
    rfl

theorem proper_of_mem_blocks {items : List Item} {blocks : List (List Line)}
    (hitems : ∀ item ∈ items, item.Legible)
    (h : List.Forall₂ (fun item lines ↦ Item.lines .raylib item = .ok lines) items blocks) :
    ∀ lines ∈ blocks, ∀ line ∈ lines, line.Proper := by
  intro lines hlines
  obtain ⟨item, hitem, h⟩ := exists_of_mem_right h hlines
  exact (shown_of_lines (hitems item hitem) h).proper

/-- Legible interfaces with one source have the same outlines, item by item. -/
theorem outlines_eq_of_source_eq {name : String} {a b : Interface} {ea eb : Emission}
    (ha : a.Legible) (hb : b.Legible) (hea : emit .raylib name a = .ok ea)
    (heb : emit .raylib name b = .ok eb) (hsource : ea.source = eb.source) :
    a.items.map Item.outline = b.items.map Item.outline := by
  obtain ⟨as, has, hsourceA⟩ := exists_lines hea
  obtain ⟨bs, hbs, hsourceB⟩ := exists_lines heb
  rw [declared_raylib] at has hbs
  rw [hsourceA, hsourceB] at hsource
  have hblocks := Emission.blocks_eq_of_source_eq (proper_of_mem_blocks ha has)
    (proper_of_mem_blocks hb hbs) hsource
  have hread := congrArg (List.map Outline.read) hblocks
  rw [map_read ha has, map_read hb hbs] at hread
  exact List.map_injective_iff.mpr (fun _ _ ↦ Option.some.inj) hread

theorem map_eq_of_map_eq {α β γ : Type} {f : α → β} {g : α → γ}
    (hfg : ∀ x y, f x = f y → g x = g y) {l r : List α} (h : l.map f = r.map f) :
    l.map g = r.map g := by
  induction l generalizing r with
  | nil =>
    rw [List.map_nil, eq_comm, List.map_eq_nil_iff] at h
    rw [h]
  | cons x l ih =>
    cases r with
    | nil => exact nomatch h
    | cons y r =>
      rw [List.map_cons, List.map_cons, List.cons.injEq] at h ⊢
      exact ⟨hfg x y h.1, ih h.2⟩

/-- The source of a module of the library determines, kind by kind, the names and descriptions of
its items, how many fields and parameters they have, and the values of its enumerators. -/
theorem emit_raylib_unambiguous {name : String} {a b : Interface} {ea eb : Emission}
    (ha : a.Legible) (hb : b.Legible) (hea : emit .raylib name a = .ok ea)
    (heb : emit .raylib name b = .ok eb) (hsource : ea.source = eb.source) :
    (a.structs.map fun s ↦ (s.name, s.description, s.fields.map (·.description))) =
        (b.structs.map fun s ↦ (s.name, s.description, s.fields.map (·.description))) ∧
      (a.aliases.map fun t ↦ (t.name, t.description)) =
        (b.aliases.map fun t ↦ (t.name, t.description)) ∧
      (a.callbacks.map fun c ↦ (c.name, c.params.length, c.description)) =
        (b.callbacks.map fun c ↦ (c.name, c.params.length, c.description)) ∧
      (a.enums.map fun e ↦ (e.name, e.description, e.values.map fun v ↦ (v.value, v.description))) =
        (b.enums.map fun e ↦
          (e.name, e.description, e.values.map fun v ↦ (v.value, v.description))) ∧
      (a.functions.map fun f ↦ (f.name, f.params.length, f.description)) =
        b.functions.map fun f ↦ (f.name, f.params.length, f.description) := by
  have houtlines := outlines_eq_of_source_eq ha hb hea heb hsource
  have hkind : ∀ {β : Type} (kind? : Outline → Option β),
      a.items.filterMap (fun item ↦ kind? item.outline) =
        b.items.filterMap fun item ↦ kind? item.outline := by
    intro β kind?
    have hfilter := congrArg (List.filterMap kind?) houtlines
    rwa [List.filterMap_map, List.filterMap_map] at hfilter
  refine ⟨?_, ?_, ?_, ?_, ?_⟩
  · have hstructs := hkind Outline.struct?
    simpa [Interface.items, Item.outline, Outline.struct?, List.filterMap_map,
      Function.comp_def] using hstructs
  · have haliases := hkind Outline.typeAlias?
    simpa [Interface.items, Item.outline, Outline.typeAlias?, List.filterMap_map,
      Function.comp_def] using haliases
  · have hcallbacks := hkind Outline.callback?
    simpa [Interface.items, Item.outline, Outline.callback?, List.filterMap_map,
      Function.comp_def] using hcallbacks
  · have henums := hkind Outline.enum?
    have htexts : (a.enums.map fun e ↦ (e.name, e.description,
          e.values.map fun v ↦ (toString v.value.toInt, v.description))) =
        b.enums.map fun e ↦ (e.name, e.description,
          e.values.map fun v ↦ (toString v.value.toInt, v.description)) := by
      simpa [Interface.items, Item.outline, Outline.enum?, List.filterMap_map,
        Function.comp_def] using henums
    -- the source has the values as texts, and a text is that of one value only
    refine map_eq_of_map_eq (fun e e' h ↦ ?_) htexts
    simp only [Prod.mk.injEq] at h ⊢
    refine ⟨h.1, h.2.1, map_eq_of_map_eq (fun v v' h ↦ ?_) h.2.2⟩
    simp only [Prod.mk.injEq] at h ⊢
    exact ⟨Int64.toInt_inj.mp (toString_int_inj h.1), h.2⟩
  · have hfunctions := hkind Outline.function?
    simpa [Interface.items, Item.outline, Outline.function?, List.filterMap_map,
      Function.comp_def] using hfunctions

/-- An interface of a structure, an enumeration and a function, whose types differ by the blanks
around them alone. -/
def spacedInterface (type : String) : Interface where
  structs := [⟨"Ray", "", [⟨"at", type, "Origin"⟩]⟩]
  aliases := []
  callbacks := []
  enums := [⟨"Key", "", [⟨"BACK", -4, ""⟩]⟩]
  functions := [⟨"Draw", "void", [⟨"x", "int"⟩], "Shows"⟩]

theorem emit_raylib_unambiguous_spacedInterface :
    spacedInterface "int" ≠ spacedInterface " int" ∧
      ∃ plain spaced, emit .raylib "raylib" (spacedInterface "int") = .ok plain ∧
        emit .raylib "raylib" (spacedInterface " int") = .ok spaced ∧
        plain.source = spaced.source ∧
        ((spacedInterface "int").functions.map fun f ↦ (f.name, f.params.length, f.description)) =
          (spacedInterface " int").functions.map fun f ↦
            (f.name, f.params.length, f.description) := by
  have hplain : (spacedInterface "int").Legible := by decide
  have hspaced : (spacedInterface " int").Legible := by decide
  have hsome : ∃ plain, emit .raylib "raylib" (spacedInterface "int") = .ok plain := ⟨_, rfl⟩
  have hsame : emit .raylib "raylib" (spacedInterface "int") =
      emit .raylib "raylib" (spacedInterface " int") := by decide +kernel
  obtain ⟨plain, hemit⟩ := hsome
  obtain ⟨-, -, -, -, hfunctions⟩ :=
    emit_raylib_unambiguous hplain hspaced hemit (hsame ▸ hemit) rfl
  exact ⟨by decide, plain, plain, hemit, hsame ▸ hemit, rfl, hfunctions⟩

end Bindery
