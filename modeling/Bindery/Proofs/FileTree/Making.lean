import Bindery.Proofs.FileTree.Way

/-!
# Making directories along a way

A change `Follows` a way when it makes the directories of the way, where they are missing, and fails
as the way is stopped. Making the directories of a plain path in a sound tree follows the way of its
names (`makeDirectoriesWith_follows`): each is made once those above it are there
(`settle_follows`).
-/

set_option autoImplicit false
set_option relaxedAutoImplicit false

namespace Bindery.FileTree

open Traversal

/-- A change makes the directories of a way, where they are missing, and fails as the way is
stopped. -/
structure Follows (before : FileTree) (change : Change)
    (way : List (List String) × Option FileTrouble) : Prop where
  trouble : change.trouble = way.2
  get? : ∀ place, change.tree.get? place =
    if place ∈ way.1 then some .directory else before.get? place

theorem Follows.of_directories {tree : FileTree} {way : List (List String) × Option FileTrouble}
    (h : ∀ place ∈ way.1, tree.get? place = some .directory) : Follows tree ⟨tree, way.2⟩ way := by
  refine ⟨rfl, fun place ↦ ?_⟩
  split_ifs with hmem
  · exact h place hmem
  · rfl

/-- One directory more is made. -/
theorem Follows.append {tree made after : FileTree} {way : List (List String) × Option FileTrouble}
    {next : List String} (h : Follows tree ⟨made, none⟩ way)
    (hafter : ∀ place, after.get? place =
      if place = next then some .directory else made.get? place) :
    Follows tree ⟨after, none⟩ (way.1 ++ [next], none) := by
  refine ⟨rfl, fun place ↦ ?_⟩
  have hmade := h.get? place
  simp only at hmade ⊢
  rw [hafter, hmade]
  by_cases hsame : place = next <;> simp [hsame]

section Making

variable {tree : FileTree} {path : String}

theorem isDirectory_iff : tree.isDirectory path = true ↔
    pathTrouble? path = none ∧ tree.Leads (tree.start path) (Path.names path) := by
  constructor
  · intro h
    unfold isDirectory at h
    split at h
    · rename_i place hfind
      exact ⟨(find_eq_directory_iff.mp hfind).1, (find_eq_directory_iff.mp hfind).2.1⟩
    · exact nomatch h
  · rintro ⟨htrouble, hleads⟩
    rw [isDirectory, find_eq_directory_iff.mpr ⟨htrouble, hleads, rfl⟩]

variable {front : List String} {last : String}

/-- Making a directory fails as the walk to where it belongs does. -/
theorem makeDirectory_of_walk_error (htrouble : pathTrouble? path = none)
    (hnames : Path.names path = front ++ [last]) {trouble : FileTrouble}
    (hwalk : tree.walk (tree.start path) (front ++ ["."]) = .error trouble) :
    tree.makeDirectory path = .error trouble := by
  rw [makeDirectory_eq, findParent_eq, htrouble]
  simp only [hnames, List.dropLast_concat, hwalk]
  rfl

/-- Making a directory where the names before the last lead into one. -/
theorem makeDirectory_of_leads (hplain : Path.IsPlain path) (htrouble : pathTrouble? path = none)
    (hnames : Path.names path = front ++ [last]) (hleads : tree.Leads tree.here front) :
    tree.makeDirectory path = match nameTrouble? last with
      | some trouble => .error trouble
      | none =>
        if (tree.get? (tree.here ++ front ++ [last])).isSome then .error .alreadyExists
        else .ok (tree.set (tree.here ++ front ++ [last]) .directory) := by
  have hproper : ∀ name ∈ front ++ [last], name ≠ "." ∧ name ≠ ".." := hnames ▸ hplain.2
  obtain ⟨hfront, hlast⟩ := List.forall_mem_append.mp hproper
  have hlast := hlast last List.mem_cons_self
  have hstart : tree.start path = tree.here := start_of_plain hplain
  have hparent : tree.findParent path = .ok (tree.here ++ front, some last) := by
    refine findParent_eq_ok_iff.mpr ⟨htrouble, ?_, ?_, ?_⟩
    · rwa [hnames, List.dropLast_concat, hstart]
    · rw [hnames, List.dropLast_concat, hstart, placeFrom_of_plain hfront]
    · simp [hnames, hlast]
  rw [makeDirectory_eq, hparent]
  rfl

/-- Once the directories of a way are made that nothing stops, the next one is made as well. -/
theorem settle_follows {made : FileTree} (hplain : Path.IsPlain path)
    (htrouble : pathTrouble? path = none) (hnames : Path.names path = front ++ [last])
    (hblocks : (∀ name ∈ front ++ [last], nameTrouble? name = none) →
      tree.blocks (tree.here ++ front ++ [last]) = false) (hhere : made.here = tree.here)
    (hfollows : Follows tree ⟨made, none⟩ (tree.way tree.here front)) :
    Follows tree (made.settle path) (tree.way tree.here (front ++ [last])) := by
  have hproper : ∀ name ∈ front ++ [last], name ≠ "." ∧ name ≠ ".." := hnames ▸ hplain.2
  have hway : (tree.way tree.here front).2 = none := hfollows.trouble.symm
  obtain ⟨hfine, hfronts⟩ := way_snd_eq_none hway
  have hleads : made.Leads made.here front := by
    refine (leads_iff_of_plain fun name hname ↦ hproper name (by simp [hname])).mpr
      ⟨fun some hsome ↦ ?_, hfine⟩
    rw [hhere, hfollows.get?, if_pos (hfronts some hsome)]
  have hplace : placeFrom made.here (front ++ [last]) = tree.here ++ front ++ [last] := by
    rw [hhere, placeFrom_of_plain hproper, List.append_assoc]
  have hdirectory : made.isDirectory path = true ↔
      nameTrouble? last = none ∧ made.get? (tree.here ++ front ++ [last]) = some .directory := by
    rw [isDirectory_iff, start_of_plain hplain, hnames, leads_concat_iff, hplace]
    exact ⟨fun h ↦ h.2.2, fun h ↦ ⟨htrouble, hleads, h⟩⟩
  have hmake := makeDirectory_of_leads hplain htrouble hnames hleads
  rw [hhere] at hmake
  rw [way_concat last hway, settle, hmake]
  cases hlast : nameTrouble? last with
  | some trouble =>
    have hnot : ¬made.isDirectory path = true := fun h ↦ by
      have hnone := (hdirectory.mp h).1
      exact absurd (hlast.symm.trans hnone) (by simp)
    simp only [hnot]
    exact ⟨rfl, hfollows.get?⟩
  | none =>
    simp only [hlast, true_and] at hdirectory
    have hblocks := hblocks (List.forall_mem_append.mpr ⟨hfine, by simpa using hlast⟩)
    rw [hblocks]
    -- What is there already can only be a directory.
    have hentry : ∀ entry, made.get? (tree.here ++ front ++ [last]) = some entry →
        entry = .directory := fun entry h ↦ by
      rw [hfollows.get?] at h
      split_ifs at h
      · exact (Option.some.inj h).symm
      · rcases blocks_eq_false_iff.mp hblocks with hnone | hsame
        · exact absurd (hnone.symm.trans h) (by simp)
        · exact Option.some.inj (h.symm.trans hsame)
    cases hget : made.get? (tree.here ++ front ++ [last]) with
    | some entry =>
      rw [hentry entry hget] at hget
      simp only [Option.isSome_some, if_true, hdirectory.mpr hget, Bool.false_eq_true, if_false]
      refine hfollows.append fun place ↦ ?_
      split_ifs with hsame
      · rw [hsame, hget]
      · rfl
    | none =>
      simp only [Option.isSome_none, Bool.false_eq_true, if_false]
      exact hfollows.append fun place ↦ get?_set _ _ _ (by simp)

/-- Unless the way to it is missing, a directory is made as by `settle`. -/
theorem makeDirectoriesWith_succ {fuel : Nat} (hpath : path ≠ "")
    (hfound : tree.makeDirectory path ≠ .error .notFound) :
    makeDirectoriesWith (fuel + 1) tree path = tree.settle path := by
  rw [makeDirectoriesWith, if_neg hpath, settle]
  cases hmade : tree.makeDirectory path with
  | ok made => rfl
  | error trouble => cases trouble <;> first | rfl | exact absurd hmade hfound

/-- A path that there can be has a parent that there can be, or an empty one. -/
theorem pathTrouble?_parent? {parent : String} (h : Path.parent? path = some parent)
    (htrouble : pathTrouble? path = none) : parent = "" ∨ pathTrouble? parent = none := by
  obtain ⟨rest, hrest⟩ := Path.toList_parent?_prefix h
  have hsize : parent.utf8ByteSize ≤ path.utf8ByteSize := by
    have hpath : path = parent ++ String.ofList rest := String.toList_injective (by simp [hrest])
    rw [hpath, String.utf8ByteSize_append]
    exact Nat.le_add_right _ _
  refine or_iff_not_imp_left.mpr fun hempty ↦ ?_
  unfold pathTrouble? at htrouble ⊢
  split_ifs at htrouble with hnul hpath hlong
  have hclean : ¬parent.toList.contains '\x00' = true := fun hmem ↦ hnul (by
    rw [← hrest]
    simpa using Or.inl (List.contains_iff_mem.mp hmem))
  rw [if_neg hclean, if_neg hempty, if_neg (by omega)]

/-- Making the directories of a plain path in a sound tree follows the way of its names. The
induction is on the fuel, which exceeds the length of the path: the parent is shorter. -/
theorem makeDirectoriesWith_follows {fuel : Nat} (hsound : tree.Sound) (hplain : Path.IsPlain path)
    (htrouble : path = "" ∨ pathTrouble? path = none)
    (hblocks : (∀ name ∈ Path.names path, nameTrouble? name = none) →
      tree.blocks (tree.here ++ Path.names path) = false) (hfuel : path.length < fuel) :
    Follows tree (makeDirectoriesWith fuel tree path)
      (tree.way tree.here (Path.names path)) := by
  induction fuel generalizing path with
  | zero => exact absurd hfuel (Nat.not_lt_zero _)
  | succ fuel ih =>
    by_cases hempty : path = ""
    · have hfree : tree.blocks tree.here = false := blocks_eq_false_iff.mpr (.inr hsound.here)
      have hway : tree.way tree.here (Path.names path) = ([tree.here], none) := by
        rw [hempty, show Path.names "" = [] by decide, way, if_neg (by simp [hfree])]
      rw [hway, makeDirectoriesWith, if_pos hempty]
      refine ⟨rfl, fun place ↦ ?_⟩
      simp only [List.mem_singleton]
      split_ifs with hsame
      · rw [hsame, hsound.here]
      · rfl
    have htrouble := htrouble.resolve_left hempty
    obtain ⟨parent, last, hparent, hdirectory, hnames, hshorter⟩ := hplain.exists_parent? hempty
    have hstart : tree.start path = tree.here := start_of_plain hplain
    rw [hnames, ← List.append_assoc] at hblocks
    rw [hnames]
    rcases walk_dot_cases hsound hdirectory.2 tree.here with
      ⟨hleads, hway⟩ | ⟨hwalk, hmissing⟩ | ⟨trouble, hother, hwalk, hstop, hall⟩
    · -- The parent is there already.
      have hmade := makeDirectory_of_leads hplain htrouble hnames hleads
      have hfollows := Follows.of_directories (way_of_leads hsound hdirectory.2 hleads).2
      rw [hway] at hfollows
      rw [makeDirectoriesWith_succ hempty ?_]
      · exact settle_follows hplain htrouble hnames hblocks rfl hfollows
      · rw [hmade]
        split
        · rename_i trouble hlast
          intro h
          exact nameTrouble?_ne_notFound last (hlast.trans (congrArg _ (Except.error.inj h)))
        · split_ifs <;> simp
    · -- The parent is made first.
      have hmade := makeDirectory_of_walk_error htrouble hnames (hstart.symm ▸ hwalk)
      have habove := ih hdirectory (pathTrouble?_parent? hparent htrouble)
        (fun _ ↦ blocks_eq_false_iff.mpr (.inl hmissing)) (by omega)
      rw [makeDirectoriesWith, if_neg hempty, hmade]
      simp only [hparent]
      cases hstop : (tree.way tree.here (Path.names parent)).2 with
      | some trouble =>
        rw [if_pos (by rw [habove.trouble, hstop]; rfl),
          way_concat_of_stopped _ (by rw [hstop]; simp)]
        exact habove
      | none =>
        have hnone := habove.trouble.trans hstop
        rw [if_neg (by simp [hnone])]
        exact settle_follows hplain htrouble hnames hblocks
          (grown_makeDirectoriesWith fuel tree parent).here ⟨hstop.symm, habove.get?⟩
    · have hmade := makeDirectory_of_walk_error htrouble hnames (hstart.symm ▸ hwalk)
      rw [makeDirectoriesWith_succ hempty (by simp [hmade, hother]), settle, hmade,
        way_concat_of_stopped _ (by rw [hstop]; simp)]
      have hnot : ¬tree.isDirectory path = true := fun h ↦ by
        have hleads := (isDirectory_iff.mp h).2
        rw [hstart, hnames, leads_concat_iff] at hleads
        have hok := walk_dot_eq_ok_iff.mpr ⟨hleads.1, rfl⟩
        exact absurd (hwalk.symm.trans hok) (by simp)
      simp only [hnot, ← hstop]
      exact Follows.of_directories hall

end Making

end Bindery.FileTree
