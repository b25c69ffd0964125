import Bindery.Proofs.FileTree.Writing
import Mathlib.Data.Set.Insert

/-!
# The contents of files do not matter to a write

Trees are the `SameBut` for some places when they differ at most in the contents of files there.
Following a path, making directories and putting a file in place look at what kind of entry stands
at a place and never at what a file holds. So a write meets the same trouble in trees that are the
same but for some places, and leaves trees that are (`SameBut.writeAtomic`); and a path leads to the
same entry, unless it leads to a file at one of the places (`SameBut.find_cases`).

A tree `Keeps` a place when what stands there, and every directory, is still there later; then a
path that leads to the place still does (`Keeps.find`).
-/

set_option autoImplicit false
set_option relaxedAutoImplicit false

namespace Bindery.FileTree

open Traversal

/-- All that differs is what the files at some of the places hold, and permissions. -/
structure SameBut (places : Set (List String)) (tree other : FileTree) : Prop where
  here : other.here = tree.here
  get? : ∀ place, other.get? place = tree.get? place ∨
    place ∈ places ∧ ∃ old new, tree.get? place = some (.file old) ∧
      other.get? place = some (.file new)

/-- Two changes meet the same trouble, and leave trees that are the same but for some places. -/
structure Change.SameBut (places : Set (List String)) (change other : Change) : Prop where
  tree : change.tree.SameBut places other.tree
  trouble : other.trouble = change.trouble

namespace SameBut

variable {places : Set (List String)} {tree other : FileTree}

theorem refl (places : Set (List String)) (tree : FileTree) : SameBut places tree tree :=
  ⟨rfl, fun _ ↦ .inl rfl⟩

theorem mono {more : Set (List String)} (h : SameBut places tree other) (hsub : places ⊆ more) :
    SameBut more tree other :=
  ⟨h.here, fun place ↦ (h.get? place).imp id fun hfile ↦ ⟨hsub hfile.1, hfile.2⟩⟩

theorem trans {last : FileTree} (h : SameBut places tree other)
    (hnext : SameBut places other last) : SameBut places tree last := by
  refine ⟨hnext.here.trans h.here, fun place ↦ ?_⟩
  rcases h.get? place with hsame | ⟨hmem, old, middle, hold, hmiddle⟩
  · rcases hnext.get? place with hlast | ⟨hmem, old, new, hold, hnew⟩
    · exact .inl (hlast.trans hsame)
    · exact .inr ⟨hmem, old, new, hsame ▸ hold, hnew⟩
  · rcases hnext.get? place with hlast | ⟨-, -, new, -, hnew⟩
    · exact .inr ⟨hmem, old, middle, hold, hlast.trans hmiddle⟩
    · exact .inr ⟨hmem, old, new, hold, hnew⟩

theorem get?_of_notMem (h : SameBut places tree other) {place : List String}
    (hplace : place ∉ places) : other.get? place = tree.get? place :=
  (h.get? place).resolve_right fun hfile ↦ hplace hfile.1

theorem get?_eq_directory_iff (h : SameBut places tree other) (place : List String) :
    other.get? place = some .directory ↔ tree.get? place = some .directory := by
  rcases h.get? place with hsame | ⟨-, old, new, hold, hnew⟩
  · rw [hsame]
  · simp [hold, hnew]

theorem isSome_get? (h : SameBut places tree other) (place : List String) :
    (other.get? place).isSome = (tree.get? place).isSome := by
  rcases h.get? place with hsame | ⟨-, old, new, hold, hnew⟩
  · rw [hsame]
  · rw [hold, hnew]
    rfl

/-- What is put at a place of both trees stands there in both. -/
theorem set (h : SameBut places tree other) {place : List String} (entry : Entry)
    (hplace : place ≠ []) : SameBut places (tree.set place entry) (other.set place entry) := by
  refine ⟨h.here, fun q ↦ ?_⟩
  rw [get?_set tree entry q hplace, get?_set other entry q hplace]
  split_ifs
  · exact .inl rfl
  · exact h.get? q

theorem renew (h : SameBut places tree other) {place : List String} (entry : Entry)
    (hplace : place ≠ []) : SameBut places (tree.renew place entry) (other.renew place entry) :=
  ⟨h.here, (h.set entry hplace).get?⟩

/-! ### Following paths -/

theorem step (h : SameBut places tree other) (place : List String) (name : String) :
    other.step place name = tree.step place name := by
  unfold FileTree.step
  rcases h.get? place with hsame | ⟨-, old, new, hold, hnew⟩
  · rw [hsame]
    rcases h.get? (place ++ [name]) with hnext | ⟨-, old, new, hold, hnew⟩
    · rw [hnext]
    · rw [hold, hnew]
      cases nameTrouble? name <;> rfl
  · rw [hold, hnew]

theorem walk (h : SameBut places tree other) (place steps : List String) :
    other.walk place steps = tree.walk place steps := by
  rw [FileTree.walk, FileTree.walk, funext₂ h.step]

theorem findParent (h : SameBut places tree other) (path : String) :
    other.findParent path = tree.findParent path := by
  rw [findParent_eq, findParent_eq, start_congr h.here, h.walk]

/-- A path leads to the same, or to a file at one of the places. -/
theorem find_cases (h : SameBut places tree other) (path : String) :
    other.find path = tree.find path ∨
      tree.placeOf path ∈ places ∧ ∃ old new, tree.find path = .ok (tree.placeOf path, .file old) ∧
        other.find path = .ok (tree.placeOf path, .file new) := by
  cases hfind : tree.find path with
  | ok found =>
    obtain ⟨place, entry⟩ := found
    obtain rfl := place_of_find hfind
    obtain ⟨htrouble, hwalk, hentry⟩ := find_eq_ok_iff.mp hfind
    rw [← h.walk, ← start_congr h.here] at hwalk
    rcases h.get? (tree.placeOf path) with hsame | ⟨hmem, old, new, hold, hnew⟩
    · exact .inl (find_eq_ok_iff.mpr ⟨htrouble, hwalk, hsame.trans hentry⟩)
    · obtain rfl := Option.some.inj (hold.symm.trans hentry)
      exact .inr ⟨hmem, old, new, rfl, find_eq_ok_iff.mpr ⟨htrouble, hwalk, hnew⟩⟩
  | error trouble =>
    left
    rw [find_eq] at hfind ⊢
    rw [start_congr h.here, h.walk]
    split at hfind
    · exact hfind
    · cases hwalk : tree.walk (tree.start path) (Path.steps path) with
      | error _ => rwa [hwalk] at hfind
      | ok place =>
        rw [hwalk] at hfind
        have hnone := h.isSome_get? place
        cases htree : tree.get? place with
        | some entry =>
          simp only [bind, Except.bind, htree] at hfind
          exact nomatch hfind
        | none =>
          rw [htree, Option.isSome_none, Option.isSome_eq_false_iff, Option.isNone_iff_eq_none]
            at hnone
          simpa only [bind, Except.bind, htree, hnone] using hfind

theorem find_of_notMem (h : SameBut places tree other) {path : String}
    (hpath : tree.placeOf path ∉ places) : other.find path = tree.find path :=
  (h.find_cases path).resolve_right fun hfile ↦ hpath hfile.1

theorem exists? (h : SameBut places tree other) (path : String) :
    other.exists? path = tree.exists? path := by
  rw [FileTree.exists?, FileTree.exists?]
  rcases h.find_cases path with hsame | ⟨-, old, new, hold, hnew⟩
  · rw [hsame]
  · rw [hold, hnew]
    rfl

theorem isDirectory (h : SameBut places tree other) (path : String) :
    other.isDirectory path = tree.isDirectory path := by
  rw [FileTree.isDirectory, FileTree.isDirectory]
  rcases h.find_cases path with hsame | ⟨-, old, new, hold, hnew⟩
  · rw [hsame]
  · rw [hold, hnew]

theorem target (h : SameBut places tree other) (path : String) :
    other.target path = tree.target path := by
  rw [target_eq, target_eq, h.findParent]
  simp only [h.get?_eq_directory_iff]

theorem destination (h : SameBut places tree other) (path : String) :
    other.destination path = tree.destination path := by
  rw [FileTree.destination, FileTree.destination, workFile_congr h.here, h.target]
  rcases h.find_cases (workDirectory path) with hsame | ⟨-, old, new, hold, hnew⟩
  · rw [hsame]
  · rw [hold, hnew]

/-! ### Making directories -/

/-- Both trees refuse a directory for the same reason, or both have it afterwards. -/
theorem makeDirectory (h : SameBut places tree other) (path : String) :
    (∃ trouble, tree.makeDirectory path = .error trouble ∧
      other.makeDirectory path = .error trouble) ∨
    ∃ made remade, tree.makeDirectory path = .ok made ∧ other.makeDirectory path = .ok remade ∧
      SameBut places made remade := by
  rw [makeDirectory_eq, makeDirectory_eq, h.findParent]
  cases tree.findParent path with
  | error trouble => exact .inl ⟨trouble, rfl, rfl⟩
  | ok found =>
    obtain ⟨place, name⟩ := found
    cases name with
    | none => exact .inl ⟨.alreadyExists, rfl, rfl⟩
    | some name =>
      simp only [bind, Except.bind, h.isSome_get?]
      cases nameTrouble? name with
      | some trouble => exact .inl ⟨trouble, rfl, rfl⟩
      | none =>
        simp only
        split_ifs
        · exact .inl ⟨.alreadyExists, rfl, rfl⟩
        · exact .inr ⟨_, _, rfl, rfl, h.set .directory (by simp)⟩

theorem settle (h : SameBut places tree other) (path : String) :
    (tree.settle path).SameBut places (other.settle path) := by
  unfold FileTree.settle
  rcases h.makeDirectory path with ⟨trouble, htree, hother⟩ | ⟨made, remade, htree, hother, hmade⟩
  · rw [htree, hother, h.isDirectory]
    exact ⟨h, rfl⟩
  · rw [htree, hother]
    exact ⟨hmade, rfl⟩

/-- The induction is on the fuel: the directories above come first, then the directory itself. -/
theorem makeDirectoriesWith (h : SameBut places tree other) (fuel : Nat) (path : String) :
    (FileTree.makeDirectoriesWith fuel tree path).SameBut places
      (FileTree.makeDirectoriesWith fuel other path) := by
  induction fuel generalizing path with
  | zero => exact ⟨h, rfl⟩
  | succ fuel ih =>
    rw [FileTree.makeDirectoriesWith, FileTree.makeDirectoriesWith]
    by_cases hempty : path = ""
    · rw [if_pos hempty, if_pos hempty]
      exact ⟨h, rfl⟩
    rw [if_neg hempty, if_neg hempty]
    rcases h.makeDirectory path with
      ⟨trouble, htree, hother⟩ | ⟨made, remade, htree, hother, hmade⟩
    · rw [htree, hother, h.isDirectory]
      cases trouble with
      | notFound =>
        cases Path.parent? path with
        | none => exact ⟨h, rfl⟩
        | some parent =>
          have habove := ih parent
          simp only [habove.trouble]
          split_ifs
          · exact habove
          · exact habove.tree.settle path
      | _ => exact ⟨h, rfl⟩
    · rw [htree, hother]
      exact ⟨hmade, rfl⟩

theorem ensureDirectory (h : SameBut places tree other) (path : String) :
    (tree.ensureDirectory path).SameBut places (other.ensureDirectory path) := by
  rw [FileTree.ensureDirectory, FileTree.ensureDirectory, h.exists?]
  split_ifs
  · exact ⟨h, rfl⟩
  · exact h.makeDirectoriesWith _ path

/-! ### Writing -/

theorem install (h : SameBut places tree other) (path : String) (content : Content) :
    (tree.install path content).SameBut places (other.install path content) := by
  rw [install_eq, install_eq, h.destination]
  cases hplace : tree.destination path with
  | error trouble => exact ⟨h, rfl⟩
  | ok place =>
    obtain ⟨-, -, htarget⟩ := destination_eq_ok_iff.mp hplace
    obtain ⟨directory, name, -, -, -, -, hplace⟩ := target_eq_ok_iff.mp htarget
    exact ⟨h.renew _ (by simp [hplace]), rfl⟩

/-- A write ends in the same way, whatever some files hold. -/
theorem writeAtomic (h : SameBut places tree other) (path : String) (content : Content) :
    (tree.writeAtomic path content).SameBut places (other.writeAtomic path content) := by
  have hprepared := h.ensureDirectory (workDirectory path)
  unfold FileTree.writeAtomic
  simp only [hprepared.trouble]
  split_ifs
  · exact hprepared
  · exact hprepared.tree.install path content

end SameBut

/-! ### What stays -/

/-- What stands at a place is still there, and so are all directories. -/
structure Keeps (place : List String) (tree other : FileTree) : Prop where
  here : other.here = tree.here
  directory : ∀ q, tree.get? q = some .directory → other.get? q = some .directory
  entry : ∀ entry, tree.get? place = some entry → other.get? place = some entry

namespace Keeps

variable {place : List String} {tree other : FileTree}

theorem refl (place : List String) (tree : FileTree) : Keeps place tree tree :=
  ⟨rfl, fun _ ↦ id, fun _ ↦ id⟩

theorem trans {last : FileTree} (h : Keeps place tree other) (hnext : Keeps place other last) :
    Keeps place tree last :=
  ⟨hnext.here.trans h.here, fun q hq ↦ hnext.directory q (h.directory q hq),
    fun entry hentry ↦ hnext.entry entry (h.entry entry hentry)⟩

theorem of_sameBut {places : Set (List String)} (h : SameBut places tree other)
    (hplace : place ∉ places) : Keeps place tree other :=
  ⟨h.here, fun q ↦ (h.get?_eq_directory_iff q).mpr, fun _ ↦ (h.get?_of_notMem hplace).trans⟩

/-- A write elsewhere keeps a place. -/
theorem writeAtomic {path : String} (content : Content) (hplace : place ≠ tree.placeOf path) :
    Keeps place tree (tree.writeAtomic path content).tree := by
  refine ⟨here_writeAtomic tree path content, fun q ↦ directory_of_writeAtomic path content,
    fun entry hentry ↦ ?_⟩
  rcases writeAtomic_cases tree path content with ⟨-, hwritten⟩ | ⟨_, -, hgrown⟩
  · rw [hwritten.get?, if_neg hplace, if_neg (by simp [hentry]), hentry]
  · exact hgrown.get?_of_isSome hentry

theorem walk {start : List String} {names : List String} (h : Keeps place tree other)
    (hplace : (tree.get? place).isSome) (hwalk : tree.walk start names = .ok place) :
    other.walk start names = .ok place := by
  rcases List.eq_nil_or_concat names with rfl | ⟨front, last, rfl⟩
  · exact hwalk
  · rw [List.concat_eq_append] at hwalk ⊢
    obtain ⟨hleads, hstep⟩ := walk_concat_eq_ok_iff.mp hwalk
    obtain ⟨hdirectory, hname, hnext, -⟩ := step_eq_ok_iff.mp hstep
    obtain ⟨entry, hentry⟩ := Option.isSome_iff_exists.mp hplace
    refine walk_concat_eq_ok_iff.mpr ⟨hleads.of_directories h.directory, step_eq_ok_iff.mpr
      ⟨h.directory _ hdirectory, hname, hnext, fun _ _ ↦ ?_⟩⟩
    exact Option.isSome_of_eq_some (h.entry entry hentry)

/-- A path still leads to what is kept. -/
theorem find {path : String} {entry : Entry} (h : Keeps place tree other)
    (hfind : tree.find path = .ok (place, entry)) : other.find path = .ok (place, entry) := by
  obtain ⟨htrouble, hwalk, hentry⟩ := find_eq_ok_iff.mp hfind
  refine find_eq_ok_iff.mpr ⟨htrouble, ?_, h.entry entry hentry⟩
  rw [start_congr h.here]
  exact h.walk (Option.isSome_of_eq_some hentry) hwalk

end Keeps

end Bindery.FileTree
