import Bindery.Proofs.Json.Record

/-!
# Objects inside a tree

`At` says where a tree of some kind has parts that are read in their turn; a tree says nothing if
one of its parts says nothing (`At.meaning_eq_none`). An object is `Flawed` if a key that it needs
is missing, or a key of the record is there twice or has a value of another JSON kind; then it says
nothing (`Flawed.meaning_eq_none`). A tree whose records are all objects and that does say something
says a value that `Shows` every item of every list, in order, and the only value of every key that
is there (`Kind.shows_of_meaning`).
-/

set_option autoImplicit false
set_option relaxedAutoImplicit false

namespace Bindery.Json

open Traversal

/-! ### Parts -/

/-- A tree of some kind has a part that is read as another kind: itself, or a part of an item of a
list, of a value that an object has for a key of the record, or of an item in the place of a key. -/
inductive At : Kind → Tree → Kind → Tree → Prop
  | here (kind : Kind) (tree : Tree) : At kind tree kind tree
  | item {kind part : Kind} {items : List Tree} {item tree : Tree} (hitem : item ∈ items)
      (h : At kind item part tree) : At (.list kind) (.list items) part tree
  | value {keys : List (String × Bool × Kind)} {name : String} {needed : Bool} {kind part : Kind}
      {members : List (List Piece × Tree)} {value tree : Tree}
      (hkey : (name, needed, kind) ∈ keys) (hvalue : value ∈ valuesFor name members)
      (h : At kind value part tree) : At (.record keys) (.object members) part tree
  | place {keys : List (String × Bool × Kind)} {name : String} {needed : Bool} {kind part : Kind}
      {items : List Tree} {item tree : Tree} (index : Nat)
      (hkey : keys[index]? = some (name, needed, kind)) (hitem : items[index]? = some item)
      (h : At kind item part tree) : At (.record keys) (.list items) part tree

/-- An object does not have what a record asks for. -/
inductive Flawed (keys : List (String × Bool × Kind)) (members : List (List Piece × Tree)) : Prop
  | missing {name : String} {kind : Kind} (hkey : (name, true, kind) ∈ keys)
      (h : valuesFor name members = [])
  | repeated {name : String} {needed : Bool} {kind : Kind} (hkey : (name, needed, kind) ∈ keys)
      (h : 2 ≤ (valuesFor name members).length)
  | mismatched {name : String} {needed : Bool} {kind : Kind} {value : Tree}
      (hkey : (name, needed, kind) ∈ keys) (hvalue : value ∈ valuesFor name members)
      (h : ¬kind.Admits value)

/-! ### Trees that say nothing -/

/-- An object says nothing if the values of some key do not. -/
theorem meaning_object_eq_none {keys : List (String × Bool × Kind)} {name : String} {needed : Bool}
    {kind : Kind} (hkey : (name, needed, kind) ∈ keys) {members : List (List Piece × Tree)}
    (h : meaningOfValues needed kind (valuesFor name members) = none) :
    (Kind.record keys).meaning (.object members) = none := by
  rw [Kind.meaning]
  cases hnamed : members.mapM member? with
  | none => rfl
  | some named =>
    rw [← valuesOf_of_mapM hnamed] at h
    simp [meaningOfMembers_eq_none hkey h]

theorem meaningOfValues_eq_none_of_mem {needed : Bool} {kind : Kind} {values : List Tree}
    {value : Tree} (hvalue : value ∈ values) (h : kind.meaning value = none) :
    meaningOfValues needed kind values = none := by
  match values with
  | [] => exact nomatch hvalue
  | [only] =>
    rw [List.mem_singleton.mp hvalue] at h
    exact h
  | _ :: _ :: _ => rfl

theorem Flawed.meaning_eq_none {keys : List (String × Bool × Kind)}
    {members : List (List Piece × Tree)} (h : Flawed keys members) :
    (Kind.record keys).meaning (.object members) = none := by
  cases h with
  | missing hkey h => exact meaning_object_eq_none hkey (by rw [h]; rfl)
  | repeated hkey h =>
    refine meaning_object_eq_none hkey ?_
    match valuesFor _ members, h with
    | _ :: _ :: _, _ => rfl
  | mismatched hkey hvalue h =>
    exact meaning_object_eq_none hkey
      (meaningOfValues_eq_none_of_mem hvalue (Kind.meaning_of_not_admits h))

theorem meaningOfItems_eq_none {keys : List (String × Bool × Kind)} {items : List Tree}
    {index : Nat} {name : String} {needed : Bool} {kind : Kind} {item : Tree}
    (hkey : keys[index]? = some (name, needed, kind)) (hitem : items[index]? = some item)
    (h : kind.meaning item = none) : meaningOfItems keys items = none := by
  induction keys generalizing items index with
  | nil => simp at hkey
  | cons entry keys ih =>
    obtain ⟨first, need, shape⟩ := entry
    cases items with
    | nil => simp at hitem
    | cons next items =>
      rw [meaningOfItems]
      cases index with
      | zero =>
        obtain ⟨rfl, rfl, rfl⟩ : first = name ∧ need = needed ∧ shape = kind := by
          simpa using hkey
        obtain rfl : next = item := by simpa using hitem
        rw [h]
        rfl
      | succ index =>
        rw [ih hkey hitem]
        cases shape.meaning next <;> rfl

/-- A tree says nothing if one of its parts does. -/
theorem At.meaning_eq_none {kind part : Kind} {tree inner : Tree} (h : At kind tree part inner)
    (hinner : part.meaning inner = none) : kind.meaning tree = none := by
  induction h with
  | here kind tree => exact hinner
  | @item kind part items item tree hitem _ ih =>
    rw [Kind.meaning]
    cases hvalues : items.mapM kind.meaning with
    | none => rfl
    | some values =>
      obtain ⟨value, -, hvalue⟩ := exists_of_mem (mapM_eq_some_iff.mp hvalues) hitem
      exact absurd ((ih hinner).symm.trans hvalue) (Option.some_ne_none value).symm
  | value hkey hvalue _ ih =>
    exact meaning_object_eq_none hkey (meaningOfValues_eq_none_of_mem hvalue (ih hinner))
  | place index hkey hitem _ ih =>
    rw [Kind.meaning, meaningOfItems_eq_none hkey hitem (ih hinner), Option.map_none]

/-- An object inside a tree that says something has each key that it needs exactly once. -/
theorem At.exists_value {kind : Kind} {tree : Tree} {keys : List (String × Bool × Kind)}
    {members : List (List Piece × Tree)} (h : At kind tree (.record keys) (.object members))
    (htree : kind.meaning tree ≠ none) {name : String} {item : Kind}
    (hkey : (name, true, item) ∈ keys) : ∃ value, valuesFor name members = [value] := by
  have hsound : ¬Flawed keys members := fun hflaw ↦ htree (h.meaning_eq_none hflaw.meaning_eq_none)
  match hvalues : valuesFor name members with
  | [] => exact absurd (.missing hkey hvalues) hsound
  | [only] => exact ⟨only, rfl⟩
  | _ :: _ :: _ => exact absurd (.repeated hkey (by simp [hvalues])) hsound

/-! ### Trees of objects -/

mutual

/-- A value shows what a tree says in which records are objects: the items of a list are shown one
by one in their order. -/
def Kind.Shows : Kind → Tree → Json → Prop
  | .text, .text pieces, .text value => decode? pieces = some value.toList
  | .integer, .number numeral, .integer value => numeral.int64?.map Int64.toInt = some value
  | .list item, .list items, .list values => List.Forall₂ item.Shows items values
  | .record keys, .object members, .object values => ShowsMembers keys members values
  | _, _, _ => False

/-- The only value of each key is shown, and an empty list for a key that is absent and not
needed. -/
def ShowsMembers : List (String × Bool × Kind) → List (List Piece × Tree) →
    List (String × Json) → Prop
  | [], _, [] => True
  | (name, needed, kind) :: keys, members, (shown, json) :: values =>
    shown = name ∧
      ((∃ value, valuesFor name members = [value] ∧ kind.Shows value json) ∨
        (needed = false ∧ valuesFor name members = [] ∧ json = .list [])) ∧
      ShowsMembers keys members values
  | _, _, _ => False

end

/-- The items of a list are shown one by one. -/
theorem forall₂_shows {item : Kind} {items : List Tree} {values : List Json}
    (hshows : ∀ tree ∈ items, ∀ {json}, item.meaning tree = some json → item.Shows tree json)
    (h : List.Forall₂ (fun tree json ↦ item.meaning tree = some json) items values) :
    List.Forall₂ item.Shows items values := by
  induction h with
  | nil => exact .nil
  | cons hfirst _ ih =>
    obtain ⟨hhead, hothers⟩ := List.forall_mem_cons.mp hshows
    exact .cons (hhead hfirst) (ih hothers)

mutual

/-- What a tree says is shown, if no record in it is written as a list. -/
theorem Kind.shows_of_meaning (kind : Kind) {tree : Tree} {json : Json}
    (h : kind.meaning tree = some json)
    (hobjects : ∀ keys items, ¬At kind tree (.record keys) (.list items)) :
    kind.Shows tree json := by
  match kind, tree with
  | .text, .text pieces =>
    rw [Kind.meaning] at h
    obtain ⟨characters, hdecode, rfl⟩ := Option.map_eq_some_iff.mp h
    simp [Kind.Shows, hdecode]
  | .integer, .number numeral =>
    rw [Kind.meaning] at h
    obtain ⟨value, hvalue, rfl⟩ := Option.map_eq_some_iff.mp h
    simp [Kind.Shows, hvalue]
  | .list item, .list items =>
    rw [Kind.meaning] at h
    obtain ⟨values, hvalues, rfl⟩ := Option.map_eq_some_iff.mp h
    rw [Kind.Shows]
    refine forall₂_shows (fun tree htree json hmeaning ↦ ?_) (mapM_eq_some_iff.mp hvalues)
    exact item.shows_of_meaning hmeaning fun keys items hat ↦ hobjects keys items (.item htree hat)
  | .record keys, .object members =>
    rw [Kind.meaning] at h
    obtain ⟨values, hvalues, rfl⟩ := Option.map_eq_some_iff.mp h
    obtain ⟨named, hnamed, hmeaning⟩ := Option.bind_eq_some_iff.mp hvalues
    rw [Kind.Shows]
    exact showsMembers_of_meaning keys hnamed hmeaning fun entry hentry value hvalue ks items hat ↦
      hobjects ks items (.value hentry hvalue hat)
  | .record keys, .list items => exact absurd (.here _ _) (hobjects keys items)

theorem showsMembers_of_meaning (keys : List (String × Bool × Kind))
    {members : List (List Piece × Tree)} {named : List (String × Tree)}
    {values : List (String × Json)} (hnamed : members.mapM member? = some named)
    (h : meaningOfMembers keys named = some values)
    (hobjects : ∀ entry ∈ keys, ∀ value ∈ valuesFor entry.1 members, ∀ ks items,
      ¬At entry.2.2 value (.record ks) (.list items)) :
    ShowsMembers keys members values := by
  match keys with
  | [] =>
    obtain rfl : [] = values := by simpa [meaningOfMembers] using h
    trivial
  | (name, needed, kind) :: keys =>
    obtain ⟨hfirst, hothers⟩ := List.forall_mem_cons.mp hobjects
    rw [meaningOfMembers_cons, valuesOf_of_mapM hnamed] at h
    obtain ⟨json, hjson, hrest⟩ := Option.bind_eq_some_iff.mp h
    obtain ⟨others, hshown, rfl⟩ := Option.map_eq_some_iff.mp hrest
    refine ⟨rfl, ?_, showsMembers_of_meaning keys hnamed hshown hothers⟩
    match hvalues : valuesFor name members with
    | [] =>
      rw [hvalues, meaningOfValues] at hjson
      obtain ⟨hneeded, rfl⟩ : needed = false ∧ .list [] = json := by simpa using hjson
      exact .inr ⟨hneeded, rfl, rfl⟩
    | [value] =>
      rw [hvalues, meaningOfValues] at hjson
      refine .inl ⟨value, rfl, kind.shows_of_meaning hjson (hfirst value ?_)⟩
      rw [hvalues]
      exact List.mem_singleton_self value
    | _ :: _ :: _ =>
      rw [hvalues] at hjson
      exact nomatch hjson

end

end Bindery.Json
