import Bindery.Proofs.Json.Position
import Mathlib.Data.List.Nodup

/-!
# Trees with a gap

A tree with one part left out is given by the layers around the gap, the outermost one first
(`fill`). `Leads` says what is read in such a gap: a value of which kind, and by which steps it is
reached in the value of the whole tree. A tree that says something with one part in the gap says the
same with another part, but for what the other part says in its place (`Leads.meaning_fill`); with a
part that says nothing it says nothing (`Leads.at_fill`).
-/

set_option autoImplicit false
set_option relaxedAutoImplicit false

namespace Bindery.Json

open Traversal

/-! ### Parts of values -/

/-- A step into a value: to an item of a list, or to the value of a key. -/
inductive Step
  | item (index : Nat)
  | key (name : String)

/-- The value of a key among some members. -/
def memberPart? (name : String) (members : List (String × Json)) : Option Json :=
  (members.find? fun member ↦ member.1 = name).map Prod.snd

/-- Changes the value of a key among some members. -/
def changeMember (name : String) (change : Json → Json) (members : List (String × Json)) :
    List (String × Json) :=
  members.map fun member ↦ if member.1 = name then (name, change member.2) else member

/-- The part of a value that is one step away. -/
def part? (json : Json) (step : Step) : Option Json :=
  match step, json with
  | .item index, .list items => items[index]?
  | .key name, .object members => memberPart? name members
  | _, _ => none

/-- Changes the part of a value that is one step away. -/
def changePart (json : Json) (step : Step) (change : Json → Json) : Json :=
  match step, json with
  | .item index, .list items => .list (items.modify index change)
  | .key name, .object members => .object (changeMember name change members)
  | _, json => json

/-- The part of a value at the end of some steps. -/
def partAt? : Json → List Step → Option Json
  | json, [] => some json
  | json, step :: steps => (json.part? step).bind fun part ↦ part.partAt? steps

/-- Puts a value in the place of the part at the end of some steps. -/
def put : Json → List Step → Json → Json
  | _, [], value => value
  | json, step :: steps, value => json.changePart step fun part ↦ part.put steps value

/-! ### Gaps in trees -/

/-- What stands around a part of a tree: the other items of a list, or a key of an object and the
other members. -/
inductive Layer
  | item (front back : List Tree)
  | value (front : List (List Piece × Tree)) (key : List Piece) (back : List (List Piece × Tree))

def Layer.fill : Layer → Tree → Tree
  | .item front back, tree => .list (front ++ tree :: back)
  | .value front key back, tree => .object (front ++ (key, tree) :: back)

/-- The tree that some layers make around a part. -/
def fill (layers : List Layer) (tree : Tree) : Tree := layers.foldr Layer.fill tree

/-- The gap in a layer is read one step inside, as a value of another kind: it is an item of a list,
or the value of a key of a record, which may be written as an object or as a list. -/
inductive Layer.Leads : Kind → Layer → Step → Kind → Prop
  | item (kind : Kind) (front back : List Tree) :
      Leads (.list kind) (.item front back) (.item front.length) kind
  | value {keys : List (String × Bool × Kind)} {key : List Piece} {name : String} {needed : Bool}
      {kind : Kind} (front back : List (List Piece × Tree)) (hkeys : (keys.map Prod.fst).Nodup)
      (hkey : (name, needed, kind) ∈ keys) (hname : decode? key = some name.toList) :
      Leads (.record keys) (.value front key back) (.key name) kind
  | place {keys : List (String × Bool × Kind)} {name : String} {needed : Bool} {kind : Kind}
      (front back : List Tree) (hkeys : (keys.map Prod.fst).Nodup)
      (hkey : keys[front.length]? = some (name, needed, kind)) :
      Leads (.record keys) (.item front back) (.key name) kind

/-- The gap inside some layers is read at the end of some steps, as a value of another kind. -/
inductive Leads : Kind → List Layer → List Step → Kind → Prop
  | here (kind : Kind) : Leads kind [] [] kind
  | inside {kind inner part : Kind} {layer : Layer} {layers : List Layer} {step : Step}
      {steps : List Step} (hlayer : layer.Leads kind step inner)
      (h : Leads inner layers steps part) : Leads kind (layer :: layers) (step :: steps) part

/-- What is in the gap is read. -/
theorem Leads.at_fill {kind part : Kind} {layers : List Layer} {steps : List Step}
    (h : Leads kind layers steps part) (tree : Tree) : At kind (fill layers tree) part tree := by
  induction h with
  | here kind => exact .here kind tree
  | @inside kind inner part layer layers step steps hlayer h ih =>
    cases hlayer with
    | item kind front back => exact .item (List.mem_append_right _ List.mem_cons_self) ih
    | @value keys key name needed kind front back hkeys hkey hname =>
      have hmember : (key, fill layers tree) ∈ front ++ (key, fill layers tree) :: back :=
        List.mem_append_right _ List.mem_cons_self
      exact .value hkey (mem_valuesFor hname hmember) ih
    | place front back hkeys hkey =>
      refine .place front.length hkey ?_ ih
      rw [List.getElem?_append_right (Nat.le_refl _), Nat.sub_self]
      rfl

/-! ### One member among others -/

section Member

variable {name : String} {value : Json} {before after : List (String × Json)}

theorem notMem_of_nodup (h : ((before ++ (name, value) :: after).map Prod.fst).Nodup) :
    name ∉ before.map Prod.fst ∧ name ∉ after.map Prod.fst := by
  rw [List.map_append, List.map_cons, List.nodup_middle, List.nodup_cons, List.mem_append,
    not_or] at h
  exact h.1

theorem memberPart?_append (h : ((before ++ (name, value) :: after).map Prod.fst).Nodup) :
    memberPart? name (before ++ (name, value) :: after) = some value := by
  have hnone : before.find? (fun member ↦ member.1 = name) = none := by
    refine List.find?_eq_none.mpr fun member hmember heq ↦ (notMem_of_nodup h).1 ?_
    rw [← of_decide_eq_true heq]
    exact List.mem_map_of_mem hmember
  rw [memberPart?, List.find?_append, hnone, Option.none_or, List.find?_cons, decide_eq_true rfl]
  rfl

theorem changeMember_of_notMem {members : List (String × Json)} (change : Json → Json)
    (h : name ∉ members.map Prod.fst) : changeMember name change members = members := by
  have hkept : ∀ member ∈ members, (if member.1 = name then (name, change member.2) else member) =
      member := by
    intro member hmember
    refine if_neg fun heq ↦ h ?_
    rw [← heq]
    exact List.mem_map_of_mem hmember
  rw [changeMember, List.map_congr_left hkept, List.map_id']

theorem changeMember_append (change : Json → Json)
    (h : ((before ++ (name, value) :: after).map Prod.fst).Nodup) :
    changeMember name change (before ++ (name, value) :: after) =
      before ++ (name, change value) :: after := by
  obtain ⟨hbefore, hafter⟩ := notMem_of_nodup h
  have hsplit : changeMember name change (before ++ (name, value) :: after) =
      changeMember name change before ++ (name, change value) :: changeMember name change after := by
    simp [changeMember]
  rw [hsplit, changeMember_of_notMem change hbefore, changeMember_of_notMem change hafter]

end Member

/-! ### One part among others -/

section Part

variable {keys : List (String × Bool × Kind)} {name : String} {needed : Bool} {kind : Kind}
  {values : List (String × Json)}

/-- Members are said under the keys of the record, in order. -/
theorem map_fst_of_meaningOfMembers {members : List (String × Tree)}
    (h : meaningOfMembers keys members = some values) :
    values.map Prod.fst = keys.map Prod.fst := by
  induction keys generalizing values with
  | nil =>
    obtain rfl : [] = values := by simpa [meaningOfMembers] using h
    rfl
  | cons entry keys ih =>
    obtain ⟨name, needed, kind⟩ := entry
    rw [meaningOfMembers_cons] at h
    obtain ⟨value, -, hrest⟩ := Option.bind_eq_some_iff.mp h
    obtain ⟨rest, hothers, rfl⟩ := Option.map_eq_some_iff.mp hrest
    rw [List.map_cons, List.map_cons, ih hothers]

theorem meaningOfItems_cons_cons (item : Tree) (items : List Tree) :
    meaningOfItems ((name, needed, kind) :: keys) (item :: items) =
      (kind.meaning item).bind fun value ↦
        (meaningOfItems keys items).map ((name, value) :: ·) := by
  rw [meaningOfItems]
  cases meaningOfItems keys items <;> rfl

/-- Items are said under the keys of the record, in order. -/
theorem map_fst_of_meaningOfItems {items : List Tree} (h : meaningOfItems keys items = some values) :
    values.map Prod.fst = keys.map Prod.fst := by
  induction keys generalizing items values with
  | nil =>
    cases items with
    | nil =>
      obtain rfl : [] = values := by simpa [meaningOfItems] using h
      rfl
    | cons item items => simp [meaningOfItems] at h
  | cons entry keys ih =>
    obtain ⟨name, needed, kind⟩ := entry
    have hrest : ∃ others value rest, meaningOfItems keys others = some rest ∧
        values = (name, value) :: rest := by
      cases items with
      | nil =>
        rw [meaningOfItems] at h
        split_ifs at h
        obtain ⟨rest, hrest, rfl⟩ := Option.map_eq_some_iff.mp h
        exact ⟨[], _, rest, hrest, rfl⟩
      | cons item items =>
        rw [meaningOfItems_cons_cons] at h
        obtain ⟨value, -, hothers⟩ := Option.bind_eq_some_iff.mp h
        obtain ⟨rest, hrest, rfl⟩ := Option.map_eq_some_iff.mp hothers
        exact ⟨items, value, rest, hrest, rfl⟩
    obtain ⟨others, value, rest, hothers, rfl⟩ := hrest
    rw [List.map_cons, List.map_cons, ih hothers]

/-- Of several values that say something, none is beside another. -/
theorem meaningOfValues_append_eq_some {front back : List Tree} {tree : Tree} {value : Json}
    (h : meaningOfValues needed kind (front ++ tree :: back) = some value) :
    front = [] ∧ back = [] ∧ kind.meaning tree = some value := by
  match front, back with
  | [], [] => exact ⟨rfl, rfl, h⟩
  | [], _ :: _ => exact nomatch h
  | [_], _ => exact nomatch h
  | _ :: _ :: _, _ => exact nomatch h

/-- Exchanging one member of an object exchanges what is said under its key. -/
theorem exists_of_meaningOfMembers (hkeys : (keys.map Prod.fst).Nodup)
    (hkey : (name, needed, kind) ∈ keys) {front back : List (String × Tree)} {old : Tree}
    (h : meaningOfMembers keys (front ++ (name, old) :: back) = some values) :
    ∃ before inner after, kind.meaning old = some inner ∧
      values = before ++ (name, inner) :: after ∧
      ∀ new value, kind.meaning new = some value →
        meaningOfMembers keys (front ++ (name, new) :: back) =
          some (before ++ (name, value) :: after) := by
  induction keys generalizing values with
  | nil => exact nomatch hkey
  | cons entry keys ih =>
    obtain ⟨first, need, shape⟩ := entry
    obtain ⟨hfresh, hothers⟩ := List.nodup_cons.mp hkeys
    have hkept : ∀ other, other ≠ name → ∀ new,
        valuesOf other (front ++ (name, new) :: back) = valuesOf other (front ++ back) := by
      intro other hne new
      rw [valuesOf_append, valuesOf_cons_of_ne hne.symm, valuesOf_append]
    rw [meaningOfMembers_cons] at h
    obtain ⟨json, hjson, hrest⟩ := Option.bind_eq_some_iff.mp h
    obtain ⟨rest, hmeaning, rfl⟩ := Option.map_eq_some_iff.mp hrest
    rcases List.mem_cons.mp hkey with heq | hmem
    · obtain ⟨rfl, rfl, rfl⟩ : name = first ∧ needed = need ∧ kind = shape := by simpa using heq
      rw [valuesOf_append, valuesOf_cons_self] at hjson
      obtain ⟨hfront, hback, hold⟩ := meaningOfValues_append_eq_some hjson
      refine ⟨[], json, rest, hold, rfl, fun new value hnew ↦ ?_⟩
      have hsame : meaningOfMembers keys (front ++ (name, new) :: back) =
          meaningOfMembers keys (front ++ (name, old) :: back) := by
        refine meaningOfMembers_congr fun entry hentry ↦ ?_
        have hne : entry.1 ≠ name := by
          rintro rfl
          exact hfresh (List.mem_map.mpr ⟨entry, hentry, rfl⟩)
        rw [hkept _ hne, hkept _ hne]
      rw [meaningOfMembers_cons, hsame, hmeaning, valuesOf_append, valuesOf_cons_self, hfront, hback]
      exact congrArg (Option.bind · _) hnew
    · have hne : first ≠ name := by
        rintro rfl
        exact hfresh (List.mem_map.mpr ⟨_, hmem, rfl⟩)
      obtain ⟨before, inner, after, hold, rfl, hnew⟩ := ih hothers hmem hmeaning
      refine ⟨(first, json) :: before, inner, after, hold, rfl, fun new value hvalue ↦ ?_⟩
      rw [hkept _ hne] at hjson
      rw [meaningOfMembers_cons, hkept _ hne, hjson, hnew new value hvalue]
      rfl

/-- Exchanging one item of a record that is written as a list exchanges what is said under the key
in its place. -/
theorem exists_of_meaningOfItems {front back : List Tree} {old : Tree}
    (hkey : keys[front.length]? = some (name, needed, kind))
    (h : meaningOfItems keys (front ++ old :: back) = some values) :
    ∃ before inner after, kind.meaning old = some inner ∧
      values = before ++ (name, inner) :: after ∧
      ∀ new value, kind.meaning new = some value →
        meaningOfItems keys (front ++ new :: back) = some (before ++ (name, value) :: after) := by
  induction front generalizing keys values with
  | nil =>
    obtain ⟨keys, rfl⟩ : ∃ later, keys = (name, needed, kind) :: later := by
      cases keys with
      | nil => exact nomatch hkey
      | cons entry keys => exact ⟨keys, by rw [Option.some.inj hkey]⟩
    rw [List.nil_append, meaningOfItems_cons_cons] at h
    obtain ⟨inner, hold, hrest⟩ := Option.bind_eq_some_iff.mp h
    obtain ⟨after, hafter, rfl⟩ := Option.map_eq_some_iff.mp hrest
    refine ⟨[], inner, after, hold, rfl, fun new value hnew ↦ ?_⟩
    rw [List.nil_append, meaningOfItems_cons_cons, hnew, hafter]
    rfl
  | cons item front ih =>
    cases keys with
    | nil => exact nomatch hkey
    | cons entry keys =>
      obtain ⟨first, need, shape⟩ := entry
      rw [List.cons_append, meaningOfItems_cons_cons] at h
      obtain ⟨json, hjson, hrest⟩ := Option.bind_eq_some_iff.mp h
      obtain ⟨rest, hmeaning, rfl⟩ := Option.map_eq_some_iff.mp hrest
      obtain ⟨before, inner, after, hold, rfl, hnew⟩ := ih hkey hmeaning
      refine ⟨(first, json) :: before, inner, after, hold, rfl, fun new value hvalue ↦ ?_⟩
      rw [List.cons_append, meaningOfItems_cons_cons, hjson, hnew new value hvalue]
      rfl

end Part

/-! ### Filling the gap -/

/-- With another part, a layer says the same but for this part. -/
theorem Layer.Leads.meaning_fill {kind part : Kind} {layer : Layer} {step : Step}
    (h : layer.Leads kind step part) {old : Tree} {whole : Json}
    (hold : kind.meaning (layer.fill old) = some whole) :
    ∃ inner, part.meaning old = some inner ∧ whole.part? step = some inner ∧
      ∀ new change, part.meaning new = some (change inner) →
        kind.meaning (layer.fill new) = some (whole.changePart step change) := by
  cases h with
  | item kind front back =>
    rw [fill, Kind.meaning] at hold
    obtain ⟨values, hvalues, rfl⟩ := Option.map_eq_some_iff.mp hold
    obtain ⟨before, inner, after, hbefore, hinner, hafter, rfl⟩ :=
      mapM_append_cons_eq_some_iff.mp hvalues
    have hlength : front.length = before.length := (mapM_eq_some_iff.mp hbefore).length_eq
    refine ⟨inner, hinner, ?_, fun new change hchange ↦ ?_⟩
    · rw [part?, hlength, List.getElem?_append_right (Nat.le_refl _), Nat.sub_self]
      rfl
    · have hnew := mapM_append_cons_eq_some_iff.mpr
        ⟨before, _, after, hbefore, hchange, hafter, rfl⟩
      have hmodify : (before ++ inner :: after).modify before.length change =
          before ++ change inner :: after := by simp [List.modify_eq_set_getElem?]
      rw [fill, Kind.meaning, hnew, changePart, hlength, hmodify]
      rfl
  | @value keys key name needed kind front back hkeys hkey hname =>
    have hmember : ∀ tree, member? (key, tree) = some (name, tree) := by
      intro tree
      rw [member?, hname, Option.map_some, String.ofList_toList]
    rw [fill, Kind.meaning] at hold
    obtain ⟨values, hvalues, rfl⟩ := Option.map_eq_some_iff.mp hold
    obtain ⟨named, hnamed, hmeaning⟩ := Option.bind_eq_some_iff.mp hvalues
    obtain ⟨first, member, last, hfirst, hold, hlast, rfl⟩ :=
      mapM_append_cons_eq_some_iff.mp hnamed
    obtain rfl : (name, old) = member := Option.some.inj ((hmember old).symm.trans hold)
    have hnames := hkeys
    rw [← map_fst_of_meaningOfMembers hmeaning] at hnames
    obtain ⟨before, inner, after, hinner, rfl, hnew⟩ := exists_of_meaningOfMembers hkeys hkey hmeaning
    refine ⟨inner, hinner, memberPart?_append hnames, fun new change hchange ↦ ?_⟩
    have hmembers := mapM_append_cons_eq_some_iff.mpr ⟨first, _, last, hfirst, hmember new, hlast, rfl⟩
    rw [fill, Kind.meaning, hmembers, Option.bind_some, hnew new _ hchange, changePart,
      changeMember_append change hnames]
    rfl
  | @place keys name needed kind front back hkeys hkey =>
    rw [fill, Kind.meaning] at hold
    obtain ⟨values, hvalues, rfl⟩ := Option.map_eq_some_iff.mp hold
    have hnames := hkeys
    rw [← map_fst_of_meaningOfItems hvalues] at hnames
    obtain ⟨before, inner, after, hinner, rfl, hnew⟩ := exists_of_meaningOfItems hkey hvalues
    refine ⟨inner, hinner, memberPart?_append hnames, fun new change hchange ↦ ?_⟩
    rw [fill, Kind.meaning, hnew new _ hchange, changePart, changeMember_append change hnames]
    rfl

/-- With another part in the gap, a tree says the same but for what the part says. -/
theorem Leads.meaning_fill {kind part : Kind} {layers : List Layer} {steps : List Step}
    (h : Leads kind layers steps part) {old : Tree} {whole : Json}
    (hold : kind.meaning (fill layers old) = some whole) :
    ∃ inner, part.meaning old = some inner ∧ whole.partAt? steps = some inner ∧
      ∀ new value, part.meaning new = some value →
        kind.meaning (fill layers new) = some (whole.put steps value) := by
  induction h generalizing whole with
  | here kind => exact ⟨whole, hold, rfl, fun new value hnew ↦ hnew⟩
  | @inside kind inner part layer layers step steps hlayer h ih =>
    obtain ⟨outer, houter, hpart, hchange⟩ := hlayer.meaning_fill hold
    obtain ⟨value, hvalue, hpartAt, hput⟩ := ih houter
    refine ⟨value, hvalue, ?_, fun new value hnew ↦ hchange _ _ (hput new value hnew)⟩
    rw [partAt?, hpart]
    exact hpartAt

end Bindery.Json
