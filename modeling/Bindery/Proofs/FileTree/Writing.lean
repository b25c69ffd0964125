import Bindery.Proofs.FileTree.Directories
import Bindery.Proofs.Text.Integer
import Mathlib.Data.List.Nodup
import Mathlib.Data.List.Perm.Subperm

/-!
# Replacing a file in one step

A file is replaced by way of a work file, whose name is free (`freshName_isFree`), so that it stands
in the way of no path (`target_set_of_notMem`) and nothing is left of it (`erase_set_of_isUnused`):
a file is put at its `destination`, or nothing has happened (`install_eq`). In the end of a write
the tree either is `Written`, which says of every place what it holds, or it has grown over the
waypoints of the directory of the file and nothing else (`writeAtomic_cases`). A file that is
overwritten where it is needs no work file; what was written stands there afterwards, unless it is a
device (`find_of_overwrite`).
-/

set_option autoImplicit false
set_option relaxedAutoImplicit false

namespace Bindery.FileTree

open Traversal

/-! ### Work files -/

theorem workName_injective : Function.Injective workName := by
  intro m n h
  have hnumber : (1000 + m).repr = (1000 + n).repr := by
    rw [← String.append_right_inj ".work-"]
    exact h
  have hsame := Text.repr_nat_inj hnumber
  omega

theorem getElem?_of_isPrefixOf {directory place : List String} {name : String}
    (h : (directory ++ [name]).isPrefixOf place = true) : place[directory.length]? = some name := by
  obtain ⟨rest, rfl⟩ := List.isPrefixOf_iff_prefix.mp h
  simp

/-- The name that is chosen for a work file is in use neither in its directory nor in the path. -/
theorem freshName_isFree (tree : FileTree) (directory : List String) (path : String) :
    tree.isUnused (directory ++ [tree.freshName directory path]) = true ∧
      tree.freshName directory path ∉ Path.names path := by
  -- There are more tries than names that are taken, so one of them is free.
  let places := tree.entries.map Prod.fst ++ tree.modes.map Prod.fst
  let taken := places.filterMap (·[directory.length]?) ++ Path.names path
  have htaken : ∀ name, (tree.isUnused (directory ++ [name]) &&
      !(Path.names path).contains name) = false → name ∈ taken := by
    intro name hname
    rw [Bool.and_eq_false_iff, Bool.not_eq_false', List.contains_iff_mem] at hname
    refine List.mem_append.mpr (hname.imp (fun hused ↦ ?_) id)
    rw [isUnused, Bool.and_eq_false_iff, List.all_eq_false, List.all_eq_false] at hused
    rcases hused with ⟨old, hold, hbelow⟩ | ⟨old, hold, hbelow⟩
    · refine List.mem_filterMap.mpr ⟨old.1, List.mem_append_left _ (List.mem_map_of_mem hold), ?_⟩
      exact getElem?_of_isPrefixOf (by simpa using hbelow)
    · refine List.mem_filterMap.mpr ⟨old.1, List.mem_append_right _ (List.mem_map_of_mem hold), ?_⟩
      exact getElem?_of_isPrefixOf (by simpa using hbelow)
  unfold freshName
  simp only
  cases hfind : List.find? _ _ with
  | some name =>
    have hfree := List.find?_some hfind
    simpa using hfree
  | none =>
    exfalso
    have hall : ((List.range (tree.entries.length + tree.modes.length +
        (Path.names path).length + 1)).map workName) ⊆ taken := by
      intro name hname
      have hnot := List.find?_eq_none.mp hfind name hname
      exact htaken name (by simpa using hnot)
    have hnodup := List.Nodup.map workName_injective (List.nodup_range (n :=
      tree.entries.length + tree.modes.length + (Path.names path).length + 1))
    have hlength := (hnodup.subperm hall).length_le
    have hfew := List.length_filterMap_le (·[directory.length]?) places
    simp only [List.length_map, List.length_range, List.length_append, taken, places]
      at hlength hfew
    omega

/-- A work file is not named as a directory is on its own way. -/
theorem freshName_ne_dot (tree : FileTree) (directory : List String) (path : String) :
    tree.freshName directory path ≠ "." := by
  have hwork : ∀ number, workName number ≠ "." := fun number hdot ↦ by
    have hlength := congrArg String.length hdot
    simp only [workName, String.length_append] at hlength
    rw [show ".work-".length = 6 from rfl, show ".".length = 1 from rfl] at hlength
    omega
  unfold freshName
  simp only
  cases hfind : List.find? _ _ with
  | none => exact hwork 0
  | some name =>
    obtain ⟨number, -, hnumber⟩ := List.mem_map.mp (List.mem_of_find?_eq_some hfind)
    exact hnumber ▸ hwork number

/-- A work file leaves no trace. -/
theorem erase_set_of_isUnused {tree : FileTree} {place : List String} (entry : Entry)
    (h : tree.isUnused place = true) : (tree.set place entry).erase place = tree := by
  rw [isUnused, Bool.and_eq_true, List.all_eq_true, List.all_eq_true] at h
  obtain ⟨here, entries, modes⟩ := tree
  have hentries : (entries.filter fun old ↦ old.1 ≠ place).filter
      (fun old ↦ !place.isPrefixOf old.1) = entries := by
    rw [List.filter_filter, List.filter_eq_self]
    intro old hold
    have hnot := h.1 old hold
    have hne : old.1 ≠ place := fun hsame ↦ by
      rw [hsame, List.isPrefixOf_iff_prefix.mpr List.prefix_rfl] at hnot
      exact nomatch hnot
    simp [hnot, hne]
  have hmodes : modes.filter (fun old ↦ !place.isPrefixOf old.1) = modes :=
    List.filter_eq_self.mpr h.2
  simp only [erase, set, hmodes]
  rw [List.filter_cons_of_neg (by simp), hentries]

/-! ### Putting a file in place -/

theorem get?_renew (tree : FileTree) {place : List String} (entry : Entry) (other : List String)
    (hplace : place ≠ []) :
    (tree.renew place entry).get? other =
      if other = place then some entry else tree.get? other :=
  get?_set tree entry other hplace

@[simp] theorem here_renew (tree : FileTree) (place : List String) (entry : Entry) :
    (tree.renew place entry).here = tree.here :=
  rfl

@[simp] theorem modes_renew (tree : FileTree) (place : List String) (entry : Entry) :
    (tree.renew place entry).modes = tree.modes.filter fun old ↦ old.1 ≠ place :=
  rfl

theorem target_eq (tree : FileTree) (path : String) :
    tree.target path = tree.findParent path >>= fun found ↦ match found.2 with
      | none => .error .busy
      | some name => match nameTrouble? name with
        | some trouble => .error trouble
        | none =>
          if Path.endsInSlash path then .error .notADirectory
          else if tree.get? (found.1 ++ [name]) = some .directory then .error .isADirectory
          else .ok (found.1 ++ [name]) := by
  unfold target
  cases tree.findParent path with
  | error trouble => rfl
  | ok found =>
    obtain ⟨place, name⟩ := found
    cases name with
    | none => rfl
    | some name =>
      simp only [bind, Except.bind]
      cases nameTrouble? name with
      | some trouble => rfl
      | none => simp only []; split_ifs <;> rfl

/-- A path has a target when its names but the last lead into a directory, the last is that of an
entry other than a directory, and no slash follows it. -/
theorem target_eq_ok_iff {tree : FileTree} {path : String} {place : List String} :
    tree.target path = .ok place ↔
      ∃ directory name, tree.findParent path = .ok (directory, some name) ∧
        nameTrouble? name = none ∧ Path.endsInSlash path = false ∧
        tree.get? (directory ++ [name]) ≠ some .directory ∧ place = directory ++ [name] := by
  rw [target_eq, bind_eq_ok_iff]
  constructor
  · rintro ⟨⟨directory, name⟩, hparent, h⟩
    cases name with
    | none => exact nomatch h
    | some name =>
      simp only at h
      split at h
      · exact nomatch h
      · split_ifs at h with hslash hdirectory
        exact ⟨directory, name, hparent, ‹_›, by simpa using hslash, hdirectory,
          (Except.ok.inj h).symm⟩
  · rintro ⟨directory, name, hparent, hname, hslash, hdirectory, rfl⟩
    exact ⟨_, hparent, by simp [hname, hslash, hdirectory]⟩

/-- A file that is put at the target of a path is found there. -/
theorem find_renew_of_target {tree : FileTree} {path : String} {place : List String}
    (entry : Entry) (h : tree.target path = .ok place) :
    (tree.renew place entry).find path = .ok (place, entry) := by
  obtain ⟨directory, name, hparent, hname, hslash, hdirectory, hplace⟩ := target_eq_ok_iff.mp h
  obtain ⟨htrouble, hleads, -⟩ := findParent_eq_ok_iff.mp hparent
  obtain ⟨hnames, -, -, hplaceOf⟩ := names_of_findParent hparent
  have hget : ∀ q, (tree.renew place entry).get? q =
      if q = place then some entry else tree.get? q :=
    fun q ↦ get?_renew tree entry q (by simp [hplace])
  have hsame : (tree.renew place entry).placeOf path = place := hplaceOf.trans hplace.symm
  conv_rhs => rw [← hsame]
  refine find_eq_of_last htrouble hslash (hleads.of_directories fun q hq ↦ ?_) hnames hname ?_
  · rw [hget, if_neg fun hold ↦ hdirectory (by rw [← hplace, ← hold, hq])]
    exact hq
  · rw [hsame, hget, if_pos rfl]

/-! ### The work file stands in the way of no path -/

/-- Nothing that a tree holds is below an unused place. -/
theorem not_prefix_of_isUnused {tree : FileTree} {work place : List String} (hwork : work ≠ [])
    (hunused : tree.isUnused work = true) (hplace : (tree.get? place).isSome) :
    ¬work <+: place := by
  intro hbelow
  rw [isUnused, Bool.and_eq_true, List.all_eq_true] at hunused
  cases hempty : place.isEmpty with
  | true =>
    rw [List.isEmpty_iff.mp hempty] at hbelow
    exact hwork (List.prefix_nil.mp hbelow)
  | false =>
    obtain ⟨entry, hentry⟩ := Option.isSome_iff_exists.mp hplace
    rw [get?, hempty, if_neg (by simp), List.lookup_eq_some_iff] at hentry
    obtain ⟨before, after, hentries, -⟩ := hentry
    have hnot := hunused.1 (place, entry) (by rw [hentries]; simp)
    rw [List.isPrefixOf_iff_prefix.mpr hbelow] at hnot
    exact absurd hnot (by decide)

theorem isAbsolute_workDirectory {path : String} (h : Path.isAbsolute path = false) :
    Path.isAbsolute (workDirectory path) = false := by
  unfold workDirectory
  split
  · decide
  · split_ifs
    · decide
    · rwa [Path.isAbsolute_parent? ‹_›]

/-- A path starts outside of the work file. -/
theorem not_prefix_start {tree : FileTree} {path : String} {work directory : List String}
    (hwork : work ≠ []) (hunused : tree.isUnused work = true)
    (hfind : tree.find (workDirectory path) = .ok (directory, .directory)) :
    ¬work <+: tree.start path := by
  cases habsolute : Path.isAbsolute path with
  | true =>
    rw [start, habsolute, if_pos rfl]
    exact fun hbelow ↦ hwork (List.prefix_nil.mp hbelow)
  | false =>
    have hstart : tree.start (workDirectory path) = tree.start path := by
      rw [start, start, habsolute, isAbsolute_workDirectory habsolute]
    have hdirectory := (find_eq_directory_iff.mp hfind).2.1.1 [] List.nil_prefix
    rw [hstart] at hdirectory
    exact not_prefix_of_isUnused hwork hunused (Option.isSome_of_eq_some hdirectory)

section Staged

variable {tree : FileTree} {directory : List String} {fresh : String} (entry : Entry)

/-- What has another name is not below the work file. -/
theorem not_prefix_concat {place : List String} {name : String} (hname : name ≠ fresh)
    (hplace : ¬directory ++ [fresh] <+: place) : ¬directory ++ [fresh] <+: place ++ [name] := by
  rw [List.prefix_concat_iff]
  rintro (hsame | hbelow)
  · exact hname (List.singleton_inj.mp (List.append_inj_right' hsame rfl)).symm
  · exact hplace hbelow

/-- A step by another name does not lead to the work file. -/
theorem not_prefix_descend {place : List String} {name : String} (hname : name ≠ fresh)
    (hplace : ¬directory ++ [fresh] <+: place) : ¬directory ++ [fresh] <+: descend place name := by
  unfold descend
  split_ifs
  · exact hplace
  · exact fun hbelow ↦ hplace (hbelow.trans (List.dropLast_prefix place))
  · exact not_prefix_concat hname hplace

theorem step_set_of_ne {place : List String} {name : String} (hname : name ≠ fresh)
    (hplace : ¬directory ++ [fresh] <+: place) :
    (tree.set (directory ++ [fresh]) entry).step place name = tree.step place name := by
  have hget : ∀ q, ¬directory ++ [fresh] <+: q →
      (tree.set (directory ++ [fresh]) entry).get? q = tree.get? q := fun q hq ↦ by
    rw [get?_set tree entry q (by simp), if_neg]
    rintro rfl
    exact hq List.prefix_rfl
  rw [step, step, hget place hplace, hget _ (not_prefix_concat hname hplace)]

theorem walk_set_of_notMem {place names : List String} (hnames : fresh ∉ names)
    (hplace : ¬directory ++ [fresh] <+: place) :
    (tree.set (directory ++ [fresh]) entry).walk place names = tree.walk place names := by
  induction names generalizing place with
  | nil => rfl
  | cons name names ih =>
    obtain ⟨hname, hnames⟩ := List.ne_and_not_mem_of_not_mem_cons hnames
    rw [walk_cons, walk_cons, step_set_of_ne entry hname.symm hplace]
    cases hstep : tree.step place name with
    | error trouble => rfl
    | ok next =>
      rw [(step_eq_ok_iff.mp hstep).2.2.1]
      exact ih hnames (not_prefix_descend hname.symm hplace)

/-- A target is found beside a work file as without it. -/
theorem target_set_of_notMem {path : String} (hnames : fresh ∉ Path.names path)
    (hdot : fresh ≠ ".") (hstart : ¬directory ++ [fresh] <+: tree.start path) :
    (tree.set (directory ++ [fresh]) entry).target path = tree.target path := by
  have hparent : (tree.set (directory ++ [fresh]) entry).findParent path =
      tree.findParent path := by
    have hway : fresh ∉ (Path.names path).dropLast ++ ["."] := by
      rw [List.mem_append, List.mem_singleton]
      exact not_or.mpr ⟨fun hmem ↦ hnames (List.dropLast_subset _ hmem), hdot⟩
    have hwalk : (tree.set (directory ++ [fresh]) entry).walk (tree.start path) _ = _ :=
      walk_set_of_notMem entry hway hstart
    rw [findParent_eq, findParent_eq, ← hwalk]
    rfl
  rw [target_eq, target_eq, hparent]
  cases hfound : tree.findParent path with
  | error trouble => rfl
  | ok found =>
    obtain ⟨place, name⟩ := found
    cases name with
    | none => rfl
    | some name =>
      have hmem : name ∈ Path.names path := by
        rw [(names_of_findParent hfound).1]
        simp
      have hne : place ++ [name] ≠ directory ++ [fresh] := fun hsame ↦
        hnames (List.singleton_inj.mp (List.append_inj_right' hsame rfl) ▸ hmem)
      simp only [bind, Except.bind, get?_set tree entry _ (List.concat_ne_nil fresh directory),
        hne, if_false]

end Staged

/-- The place at which a finished file is put, or why it cannot be. -/
def destination (tree : FileTree) (path : String) : Except FileTrouble (List String) :=
  match tree.find (workDirectory path) with
  | .error trouble => .error trouble
  | .ok (_, .directory) =>
    match pathTrouble? (tree.workFile path) with
    | some trouble => .error trouble
    | none => tree.target path
  | .ok (_, .file _) | .ok (_, .device _) | .ok (_, .program _) => .error .notADirectory

theorem workFile_congr {tree other : FileTree} (hhere : other.here = tree.here) (path : String) :
    other.workFile path = tree.workFile path := by
  rw [workFile, workFile, hhere]

/-- A file is put at its destination, or the tree is left as it was: of the work file there is
nothing to be seen. -/
theorem install_eq (tree : FileTree) (path : String) (content : Content) :
    tree.install path content = match tree.destination path with
      | .ok place => ⟨tree.renew place (.file content), none⟩
      | .error trouble => ⟨tree, some trouble⟩ := by
  unfold install destination
  cases hfind : tree.find (workDirectory path) with
  | error trouble => rfl
  | ok found =>
    obtain ⟨directory, entry⟩ := found
    cases entry with
    | file _ | device _ | program _ => rfl
    | directory =>
      simp only
      cases pathTrouble? (tree.workFile path) with
      | some trouble => rfl
      | none =>
        obtain ⟨hunused, hfresh⟩ := freshName_isFree tree directory path
        have hstart := not_prefix_start (by simp) hunused hfind
        have hsame := target_set_of_notMem (.file content) hfresh
          (freshName_ne_dot tree directory path) hstart
        cases htarget : tree.target path <;>
          simp only [installVia, erase_set_of_isUnused _ hunused, hsame, htarget]

theorem destination_eq_ok_iff {tree : FileTree} {path : String} {place : List String} :
    tree.destination path = .ok place ↔
      (∃ directory, tree.find (workDirectory path) = .ok (directory, .directory)) ∧
        pathTrouble? (tree.workFile path) = none ∧ tree.target path = .ok place := by
  unfold destination
  cases tree.find (workDirectory path) with
  | error trouble => simp
  | ok found =>
    obtain ⟨directory, entry⟩ := found
    cases entry with
    | file _ | device _ | program _ => simp
    | directory => cases pathTrouble? (tree.workFile path) <;> simp

/-- A file is either put at the target of its path, or the tree is left as it was. -/
theorem install_cases (tree : FileTree) (path : String) (content : Content) :
    (∃ directory place, tree.find (workDirectory path) = .ok (directory, .directory) ∧
      tree.target path = .ok place ∧
      tree.install path content = ⟨tree.renew place (.file content), none⟩) ∨
    ∃ trouble, tree.install path content = ⟨tree, some trouble⟩ := by
  rw [install_eq]
  cases hplace : tree.destination path with
  | error trouble => exact .inr ⟨trouble, rfl⟩
  | ok place =>
    obtain ⟨⟨directory, hfind⟩, -, htarget⟩ := destination_eq_ok_iff.mp hplace
    exact .inl ⟨directory, place, hfind, htarget, rfl⟩

/-! ### The whole change -/

/-- A path leads to a file of the given content, at whose place there was no directory; the
directories above it that were missing are there as well; and nothing else has changed. -/
structure Written (before after : FileTree) (path : String) (content : Content) : Prop where
  found : after.find path = .ok (before.placeOf path, .file content)
  free : before.get? (before.placeOf path) ≠ some .directory
  here : after.here = before.here
  modes : after.modes = before.modes.filter fun old ↦ old.1 ≠ before.placeOf path
  get? : ∀ place, after.get? place =
    if place = before.placeOf path then some (.file content)
    else if before.get? place = none ∧ place ∈ before.waypoints (workDirectory path) then
      some .directory
    else before.get? place

/-- A file is replaced, or nothing has happened but that some directories are new. -/
theorem writeAtomic_cases (tree : FileTree) (path : String) (content : Content) :
    ((tree.writeAtomic path content).trouble = none ∧
      Written tree (tree.writeAtomic path content).tree path content) ∨
    ∃ trouble, (tree.writeAtomic path content).trouble = some trouble ∧
      Grown tree (tree.writeAtomic path content).tree (tree.waypoints (workDirectory path)) := by
  have hgrown := grown_ensureDirectory tree (workDirectory path)
  unfold writeAtomic
  simp only
  cases htrouble : (tree.ensureDirectory (workDirectory path)).trouble with
  | some trouble =>
    rw [if_pos Option.isSome_some]
    exact .inr ⟨trouble, htrouble, hgrown⟩
  | none =>
    rw [if_neg (by simp)]
    rcases install_cases (tree.ensureDirectory (workDirectory path)).tree path content with
      ⟨directory, place, hfind, htarget, hinstall⟩ | ⟨trouble, hinstall⟩
    · rw [hinstall]
      have hfound := find_renew_of_target (.file content) htarget
      obtain ⟨_, name, hparent, -, -, hfree, hplace⟩ := target_eq_ok_iff.mp htarget
      rw [← hplace] at hfree
      have hne : place ≠ [] := by simp [hplace]
      obtain rfl : place = tree.placeOf path := by
        rw [hplace, ← (names_of_findParent hparent).2.2.2, placeOf_congr hgrown.here]
      refine .inl ⟨rfl, hfound, fun hold ↦ hfree (hgrown.get?_of_isSome hold), ?_, ?_,
        fun other ↦ ?_⟩
      · rw [here_renew, hgrown.here]
      · rw [modes_renew, hgrown.modes]
      · rw [get?_renew _ _ _ hne]
        refine if_congr Iff.rfl rfl (hgrown.get?_eq (fun waypoint hwaypoint ↦ ?_) other)
        refine directory_of_mem_waypoints hfind ?_
        rwa [waypoints_congr hgrown.here]
    · rw [hinstall]
      exact .inr ⟨trouble, rfl, hgrown⟩

theorem here_writeAtomic (tree : FileTree) (path : String) (content : Content) :
    (tree.writeAtomic path content).tree.here = tree.here := by
  rcases writeAtomic_cases tree path content with ⟨-, hwritten⟩ | ⟨_, -, hgrown⟩
  · exact hwritten.here
  · exact hgrown.here

/-- A write removes no directory. -/
theorem directory_of_writeAtomic {tree : FileTree} {place : List String} (path : String)
    (content : Content) (h : tree.get? place = some .directory) :
    (tree.writeAtomic path content).tree.get? place = some .directory := by
  rcases writeAtomic_cases tree path content with ⟨-, hwritten⟩ | ⟨_, -, hgrown⟩
  · have hne : place ≠ tree.placeOf path := fun hsame ↦ hwritten.free (hsame ▸ h)
    rw [hwritten.get?, if_neg hne, if_neg (by simp [h]), h]
  · exact hgrown.get?_of_isSome h

/-! ### Overwriting -/

theorem overwrite_eq (tree : FileTree) (path : String) (content : Content) :
    tree.overwrite path content = tree.findParent path >>= fun found ↦ match found.2 with
      | none => .error .isADirectory
      | some name => match nameTrouble? name with
        | some trouble => .error trouble
        | none =>
          if Path.endsInSlash path then .error .isADirectory
          else match tree.get? (found.1 ++ [name]) with
            | some .directory => .error .isADirectory
            | some (.device _) => .ok tree
            | some (.file _) | some (.program _) | none =>
              .ok (tree.set (found.1 ++ [name]) (.file content)) := by
  unfold overwrite
  cases tree.findParent path with
  | error trouble => rfl
  | ok found =>
    obtain ⟨place, name⟩ := found
    cases name with
    | none => rfl
    | some name =>
      simp only [bind, Except.bind]
      cases nameTrouble? name with
      | some trouble => rfl
      | none =>
        simp only []
        split_ifs
        · rfl
        · cases tree.get? (place ++ [name]) with
          | none => rfl
          | some entry => cases entry <;> rfl

/-- Overwriting finds a device, which it leaves as it is, or puts a file where no directory is. -/
theorem overwrite_eq_ok {tree after : FileTree} {path : String} {content : Content}
    (h : tree.overwrite path content = .ok after) :
    ∃ directory name, tree.findParent path = .ok (directory, some name) ∧
      nameTrouble? name = none ∧ Path.endsInSlash path = false ∧
      ((∃ device, tree.get? (directory ++ [name]) = some (.device device) ∧ after = tree) ∨
        tree.get? (directory ++ [name]) ≠ some .directory ∧
          after = tree.set (directory ++ [name]) (.file content)) := by
  rw [overwrite_eq, bind_eq_ok_iff] at h
  obtain ⟨⟨directory, name⟩, hparent, h⟩ := h
  cases name with
  | none => exact nomatch h
  | some name =>
    simp only at h
    split at h
    · exact nomatch h
    · split_ifs at h with hslash
      refine ⟨directory, name, hparent, ‹_›, by simpa using hslash, ?_⟩
      split at h
      · exact nomatch h
      · exact .inl ⟨_, ‹_›, (Except.ok.inj h).symm⟩
      all_goals exact .inr ⟨by simp_all, (Except.ok.inj h).symm⟩

/-- A path that is overwritten leads to what was written, or to a device. -/
theorem find_of_overwrite {tree after : FileTree} {path : String} {content : Content}
    (h : tree.overwrite path content = .ok after) :
    ∃ place, after.find path = .ok (place, .file content) ∨
      ∃ device, after.find path = .ok (place, .device device) := by
  obtain ⟨directory, name, hparent, hname, hslash, hcases⟩ := overwrite_eq_ok h
  obtain ⟨htrouble, hleads, -⟩ := findParent_eq_ok_iff.mp hparent
  obtain ⟨hnames, -, -, hplaceOf⟩ := names_of_findParent hparent
  have hfind : ∀ (final : FileTree) (entry : Entry), final.here = tree.here →
      (∀ q, tree.get? q = some .directory → final.get? q = some .directory) →
      final.get? (directory ++ [name]) = some entry →
      final.find path = .ok (directory ++ [name], entry) := by
    intro final entry hhere hkeeps hentry
    have hplace : final.placeOf path = directory ++ [name] := by
      rw [placeOf_congr hhere, hplaceOf]
    rw [← hplace] at hentry ⊢
    refine find_eq_of_last htrouble hslash ?_ hnames hname hentry
    rw [start_congr hhere]
    exact hleads.of_directories hkeeps
  rcases hcases with ⟨device, hdevice, rfl⟩ | ⟨hdirectory, rfl⟩
  · exact ⟨_, .inr ⟨device, hfind after _ rfl (fun _ hq ↦ hq) hdevice⟩⟩
  · have hget := fun q ↦ get?_set tree (.file content) q (by simp : directory ++ [name] ≠ [])
    refine ⟨_, .inl (hfind _ _ rfl (fun q hq ↦ ?_) (by rw [hget, if_pos rfl]))⟩
    have hother : q ≠ directory ++ [name] := by
      rintro rfl
      exact hdirectory hq
    rw [hget, if_neg hother, hq]

end Bindery.FileTree
