import Bindery.Proofs.FileTree.Walk
import Bindery.Proofs.Path

/-!
# Making directories

A tree has `Grown` over some places when all that has changed is that some of them, at which there
was nothing, are directories now. However the making of directories ends, the tree has grown over
the waypoints of the path (`grown_makeDirectories`, `grown_ensureDirectory`): what was there before
stays as it was.
-/

set_option autoImplicit false
set_option relaxedAutoImplicit false

namespace Bindery.FileTree

open Traversal

/-- All that has changed in a tree is that there are new directories at some of the places. -/
structure Grown (before after : FileTree) (places : List (List String)) : Prop where
  here : after.here = before.here
  modes : after.modes = before.modes
  get? : ∀ place, after.get? place = before.get? place ∨
    place ∈ places ∧ before.get? place = none ∧ after.get? place = some .directory

theorem Grown.refl (tree : FileTree) (places : List (List String)) : Grown tree tree places :=
  ⟨rfl, rfl, fun _ ↦ .inl rfl⟩

theorem Grown.mono {before after : FileTree} {places more : List (List String)}
    (h : Grown before after places) (hsub : places ⊆ more) : Grown before after more :=
  ⟨h.here, h.modes, fun place ↦ (h.get? place).imp id fun hnew ↦ ⟨hsub hnew.1, hnew.2⟩⟩

theorem Grown.trans {first middle last : FileTree} {places : List (List String)}
    (h : Grown first middle places) (hnext : Grown middle last places) :
    Grown first last places := by
  refine ⟨hnext.here.trans h.here, hnext.modes.trans h.modes, fun place ↦ ?_⟩
  rcases hnext.get? place with hsame | ⟨hmem, hnone, hnew⟩
  · rw [hsame]
    exact h.get? place
  · rcases h.get? place with hsame | ⟨-, -, hdirectory⟩
    · exact .inr ⟨hmem, hsame ▸ hnone, hnew⟩
    · exact absurd (hnone.symm.trans hdirectory) (by simp)

theorem Grown.get?_of_isSome {before after : FileTree} {places : List (List String)}
    (h : Grown before after places) {place : List String} {entry : Entry}
    (hentry : before.get? place = some entry) : after.get? place = some entry := by
  rcases h.get? place with hsame | ⟨-, hnone, -⟩
  · rw [hsame, hentry]
  · exact absurd (hnone.symm.trans hentry) (by simp)

/-- Where all places are directories in the end, the growth is known. -/
theorem Grown.get?_eq {before after : FileTree} {places : List (List String)}
    (h : Grown before after places)
    (hplaces : ∀ place ∈ places, after.get? place = some .directory) (place : List String) :
    after.get? place =
      if before.get? place = none ∧ place ∈ places then some .directory
      else before.get? place := by
  split_ifs with hnew
  · exact hplaces place hnew.2
  · rcases h.get? place with hsame | ⟨hmem, hnone, -⟩
    · exact hsame
    · exact absurd ⟨hnone, hmem⟩ hnew

/-! ### One directory -/

theorem makeDirectory_eq (tree : FileTree) (path : String) :
    tree.makeDirectory path = tree.findParent path >>= fun found ↦ match found.2 with
      | none => .error .alreadyExists
      | some name => match nameTrouble? name with
        | some trouble => .error trouble
        | none =>
          if (tree.get? (found.1 ++ [name])).isSome then .error .alreadyExists
          else .ok (tree.set (found.1 ++ [name]) .directory) := by
  unfold makeDirectory
  cases tree.findParent path with
  | error trouble => rfl
  | ok found =>
    obtain ⟨place, name⟩ := found
    cases name with
    | none => rfl
    | some name =>
      simp only [bind, Except.bind]
      cases nameTrouble? name with
      | some trouble => rfl
      | none => simp only []; split_ifs <;> rfl

/-- A directory that is made is at the place named, where nothing was. -/
theorem makeDirectory_eq_ok {tree made : FileTree} {path : String}
    (h : tree.makeDirectory path = .ok made) :
    tree.get? (tree.placeOf path) = none ∧ made = tree.set (tree.placeOf path) .directory := by
  rw [makeDirectory_eq, bind_eq_ok_iff] at h
  obtain ⟨⟨place, name⟩, hparent, h⟩ := h
  cases name with
  | none => exact nomatch h
  | some name =>
    rw [(names_of_findParent hparent).2.2.2]
    simp only at h
    split at h
    · exact nomatch h
    · split_ifs at h with hsome
      exact ⟨Option.not_isSome_iff_eq_none.mp hsome, (Except.ok.inj h).symm⟩

theorem grown_makeDirectory {tree made : FileTree} {path : String}
    (h : tree.makeDirectory path = .ok made) : Grown tree made (tree.waypoints path) := by
  obtain ⟨hnone, rfl⟩ := makeDirectory_eq_ok h
  have hplace : tree.placeOf path ≠ [] := fun hnil ↦ by simp [hnil] at hnone
  refine ⟨rfl, rfl, fun place ↦ ?_⟩
  rw [get?_set tree _ _ hplace]
  split_ifs with hsame
  · exact .inr ⟨hsame ▸ placeOf_mem_waypoints tree path, hsame ▸ hnone, rfl⟩
  · exact .inl rfl

theorem grown_settle (tree : FileTree) (path : String) :
    Grown tree (tree.settle path).tree (tree.waypoints path) := by
  unfold settle
  cases hmade : tree.makeDirectory path with
  | ok made => exact grown_makeDirectory hmade
  | error trouble => exact Grown.refl _ _

/-! ### All directories of a path -/

/-- The waypoints of the parent are waypoints of the path. -/
theorem waypoints_parent?_subset (tree : FileTree) {path parent : String}
    (h : Path.parent? path = some parent) : tree.waypoints parent ⊆ tree.waypoints path := by
  intro place hplace
  obtain ⟨front, hfront, rfl⟩ := mem_waypoints.mp hplace
  refine mem_waypoints.mpr ⟨front, hfront.trans (Path.names_parent?_prefix h), ?_⟩
  rw [start, start, Path.isAbsolute_parent? h]

/-- However the making of directories ends, the tree has grown over the waypoints at most. The
induction is on the fuel: the parent comes first, then the directory itself. -/
theorem grown_makeDirectoriesWith (fuel : Nat) (tree : FileTree) (path : String) :
    Grown tree (makeDirectoriesWith fuel tree path).tree (tree.waypoints path) := by
  induction fuel generalizing tree path with
  | zero => exact Grown.refl _ _
  | succ fuel ih =>
    rw [makeDirectoriesWith]
    by_cases hempty : path = ""
    · rw [if_pos hempty]
      exact Grown.refl _ _
    · rw [if_neg hempty]
      split
      · rename_i made hmade
        exact grown_makeDirectory hmade
      · split
        · exact Grown.refl _ _
        · rename_i parent hparent
          have habove := (ih tree parent).mono (waypoints_parent?_subset tree hparent)
          simp only
          split_ifs
          · exact habove
          · have hsettle := grown_settle (makeDirectoriesWith fuel tree parent).tree path
            rw [waypoints_congr habove.here] at hsettle
            exact habove.trans hsettle
      · exact Grown.refl _ _

theorem grown_makeDirectories (tree : FileTree) (path : String) :
    Grown tree (tree.makeDirectories path).tree (tree.waypoints path) :=
  grown_makeDirectoriesWith _ tree path

theorem grown_ensureDirectory (tree : FileTree) (path : String) :
    Grown tree (tree.ensureDirectory path).tree (tree.waypoints path) := by
  unfold ensureDirectory
  split_ifs
  · exact Grown.refl _ _
  · exact grown_makeDirectories tree path

end Bindery.FileTree
