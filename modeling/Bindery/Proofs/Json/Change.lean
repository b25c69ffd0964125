import Bindery.Proofs.Json.Record
import Mathlib.Logic.Relation

/-!
# Changes that do not matter

A record does not depend on the order of its members, on members with keys that it does not have,
or on an empty list where nothing would stand in for one too. A `Change` is one such change, at any
depth inside the lists and the records of a tree; it does not change what the tree says
(`Change.meaning_eq`), so neither does any number of them, made or undone (`meaning_eq_of_changes`).
-/

set_option autoImplicit false
set_option relaxedAutoImplicit false

namespace Bindery.Json

open Traversal

/-- A tree of some kind is changed in one place. A change at the front of an object is as good as
one anywhere, since members may be permuted; nothing is asked of the values of unknown keys. -/
inductive Change : Kind → Tree → Tree → Prop
  | item {kind : Kind} {old new : Tree} (front back : List Tree) (h : Change kind old new) :
      Change (.list kind) (.list (front ++ old :: back)) (.list (front ++ new :: back))
  | value {keys : List (String × Bool × Kind)} {key : List Piece} {name : String} {old new : Tree}
      (members : List (List Piece × Tree)) (hname : decode? key = some name.toList)
      (h : ∀ entry ∈ keys, entry.1 = name → Change entry.2.2 old new) :
      Change (.record keys) (.object ((key, old) :: members)) (.object ((key, new) :: members))
  | permute {keys : List (String × Bool × Kind)} {members others : List (List Piece × Tree)}
      (h : members.Perm others) : Change (.record keys) (.object members) (.object others)
  | unknown {keys : List (String × Bool × Kind)} {key : List Piece} {name : String}
      (members : List (List Piece × Tree)) (value : Tree) (hname : decode? key = some name.toList)
      (h : ∀ entry ∈ keys, entry.1 ≠ name) :
      Change (.record keys) (.object members) (.object ((key, value) :: members))
  | empty {keys : List (String × Bool × Kind)} {key : List Piece} {name : String}
      (members : List (List Piece × Tree)) (hname : decode? key = some name.toList)
      (habsent : valuesFor name members = [])
      (h : ∀ entry ∈ keys, entry.1 = name → ∃ kind, entry.2 = (false, .list kind)) :
      Change (.record keys) (.object members) (.object ((key, .list []) :: members))

/-! ### Members -/

/-- What an object says is decided by what the values of each key say, given that all its keys are
texts. -/
theorem meaning_object_congr {keys : List (String × Bool × Kind)}
    {members others : List (List Piece × Tree)}
    (hkeys : (members.mapM member?).isSome = (others.mapM member?).isSome)
    (hvalues : ∀ entry ∈ keys,
      meaningOfValues entry.2.1 entry.2.2 (valuesFor entry.1 members) =
        meaningOfValues entry.2.1 entry.2.2 (valuesFor entry.1 others)) :
    (Kind.record keys).meaning (.object members) = (Kind.record keys).meaning (.object others) := by
  rw [Kind.meaning, Kind.meaning]
  cases hmembers : members.mapM member? with
  | none =>
    rw [hmembers, eq_comm, Option.isSome_none, Option.isSome_eq_false_iff,
      Option.isNone_iff_eq_none] at hkeys
    rw [hkeys]
  | some named =>
    rw [hmembers, eq_comm, Option.isSome_some, Option.isSome_iff_exists] at hkeys
    obtain ⟨renamed, hothers⟩ := hkeys
    rw [hothers]
    refine congrArg (Option.map Json.object) (meaningOfMembers_congr fun entry hentry ↦ ?_)
    rw [valuesOf_of_mapM hmembers, valuesOf_of_mapM hothers]
    exact hvalues entry hentry

/-- A member whose key is a text is named. -/
theorem isSome_mapM_cons {key : List Piece} {name : String} (hname : decode? key = some name.toList)
    (value : Tree) (members : List (List Piece × Tree)) :
    (((key, value) :: members).mapM member?).isSome = (members.mapM member?).isSome := by
  rw [isSome_mapM, isSome_mapM, List.all_cons, member?, hname]
  exact Bool.true_and _

/-- The order of the values of a key does not matter. -/
theorem meaningOfValues_perm {values others : List Tree} (h : values.Perm others) (needed : Bool)
    (kind : Kind) : meaningOfValues needed kind values = meaningOfValues needed kind others := by
  cases values with
  | nil => rw [List.nil_perm.mp h]
  | cons value values =>
    cases values with
    | nil => rw [List.singleton_perm.mp h]
    | cons next values =>
      have hlength := h.length_eq
      match others with
      | [] | [_] => simp at hlength
      | _ :: _ :: _ => rfl

/-! ### One change and many -/

/-- A change does not change what a tree says. -/
theorem Change.meaning_eq {kind : Kind} {old new : Tree} (h : Change kind old new) :
    kind.meaning old = kind.meaning new := by
  induction h with
  | item front back _ ih =>
    rw [Kind.meaning, Kind.meaning, List.mapM_append, List.mapM_append, List.mapM_cons,
      List.mapM_cons, ih]
  | @value keys key name old new members hname _ ih =>
    refine meaning_object_congr ?_ fun entry hentry ↦ ?_
    · rw [isSome_mapM_cons hname, isSome_mapM_cons hname]
    by_cases heq : name = entry.1
    · subst heq
      rw [valuesFor_cons_self hname, valuesFor_cons_self hname]
      cases valuesFor entry.1 members with
      | nil => exact ih entry hentry rfl
      | cons other others => rfl
    · rw [valuesFor_cons_of_ne hname heq, valuesFor_cons_of_ne hname heq]
  | permute h =>
    refine meaning_object_congr ?_ fun entry _ ↦ ?_
    · rw [isSome_mapM, isSome_mapM, h.all_eq]
    · exact meaningOfValues_perm ((h.filter _).map Prod.snd) _ _
  | unknown members value hname hunknown =>
    refine meaning_object_congr (isSome_mapM_cons hname value members).symm fun entry hentry ↦ ?_
    rw [valuesFor_cons_of_ne hname (hunknown entry hentry).symm]
  | @empty keys key name members hname habsent hempty =>
    refine meaning_object_congr (isSome_mapM_cons hname _ members).symm fun entry hentry ↦ ?_
    by_cases heq : name = entry.1
    · subst heq
      obtain ⟨kind, hkind⟩ := hempty entry hentry rfl
      rw [valuesFor_cons_self hname, habsent, hkind]
      simp [meaningOfValues, Kind.meaning]
    · rw [valuesFor_cons_of_ne hname heq]

/-- Any number of changes, made or undone, do not change what a tree says. -/
theorem meaning_eq_of_changes {kind : Kind} {old new : Tree}
    (h : Relation.EqvGen (Change kind) old new) : kind.meaning old = kind.meaning new := by
  induction h with
  | rel _ _ h => exact h.meaning_eq
  | refl _ => rfl
  | symm _ _ _ ih => exact ih.symm
  | trans _ _ _ _ _ ihfirst ihsecond => exact ihfirst.trans ihsecond

end Bindery.Json
