import Bindery.Proofs.FileTree.Making
import Bindery.Proofs.FileTree.Writing

/-!
# What a write depends on

In a sound tree, replacing the file of a plain path does what its `plan` says: it makes the
directories of the plan, and puts the file in place unless the plan has a trouble
(`writeAtomic_follows`). The plan depends on a tree only through the place of the path and what
blocks the places above it (`plan_congr`). What a plain path leads to depends on a sound tree only
through the place of the path (`find_eq_ok_iff_of_plain`).
-/

set_option autoImplicit false
set_option relaxedAutoImplicit false

namespace Bindery.FileTree

open Traversal

/-- The trouble with putting a file where a path leads, once its directory is there. -/
def targetTrouble? (tree : FileTree) (path : String) : Option FileTrouble :=
  (pathTrouble? path).or <| ((Path.names path).getLast?.bind nameTrouble?).or <|
    (if Path.endsInSlash path then some .notADirectory else none).or <|
      if tree.get? (tree.placeOf path) = some .directory then some .isADirectory else none

/-- The directories that replacing a file makes where they are missing, and why it fails, if it
does. -/
def plan (tree : FileTree) (path : String) : List (List String) × Option FileTrouble :=
  match pathTrouble? (workDirectory path) with
  | some trouble => ([], some trouble)
  | none =>
    let way := tree.way tree.here (Path.names path).dropLast
    (way.1, way.2.or <| (pathTrouble? (tree.workFile path)).or <| tree.targetTrouble? path)

section Plain

variable {tree : FileTree} {path : String}

/-- A plain path that there can be has a last name. -/
theorem exists_names_of_plain (hplain : Path.IsPlain path) (htrouble : pathTrouble? path = none) :
    ∃ front last, Path.names path = front ++ [last] := by
  have hpath : path ≠ "" := by
    rintro rfl
    exact absurd htrouble (by decide)
  obtain ⟨parent, last, -, -, hnames, -⟩ := hplain.exists_parent? hpath
  exact ⟨_, last, hnames⟩

/-- Names lead into a directory in which there is something. -/
theorem leads_of_isSome (hsound : tree.Sound) {place front : List String} {last : String}
    (hproper : ∀ name ∈ front, name ≠ "." ∧ name ≠ "..")
    (hfine : ∀ name ∈ front, nameTrouble? name = none)
    (h : (tree.get? (place ++ front ++ [last])).isSome) : tree.Leads place front := by
  refine (leads_iff_of_plain hproper).mpr ⟨fun some hsome ↦ ?_, hfine⟩
  obtain ⟨rest, rfl⟩ := hsome
  exact hsound.directory_of_isSome (List.concat_ne_nil last rest) (by simpa using h)

/-- A plain path leads to what its place holds, unless it, or a name of it, is one that there cannot
be, or a slash at its end asks for a directory. -/
theorem find_eq_ok_iff_of_plain (hsound : tree.Sound) (hplain : Path.IsPlain path)
    {place : List String} {entry : Entry} :
    tree.find path = .ok (place, entry) ↔
      pathTrouble? path = none ∧ (∀ name ∈ Path.names path, nameTrouble? name = none) ∧
        (Path.endsInSlash path = true → entry = .directory) ∧
        tree.get? (tree.placeOf path) = some entry ∧ place = tree.placeOf path := by
  have hstart : tree.start path = tree.here := start_of_plain hplain
  constructor
  · intro h
    obtain ⟨htrouble, hwalk, hentry⟩ := find_eq_ok_iff.mp h
    obtain rfl := place_of_find h
    rw [Path.steps] at hwalk
    split_ifs at hwalk with hslash
    · obtain ⟨hleads, -⟩ := walk_dot_eq_ok_iff.mp hwalk
      have hdirectory : tree.get? (tree.placeOf path) = some .directory :=
        hleads.1 _ List.prefix_rfl
      exact ⟨htrouble, hleads.2, fun _ ↦ Option.some.inj (hentry.symm.trans hdirectory), hentry,
        rfl⟩
    · refine ⟨htrouble, ?_, fun h ↦ absurd h hslash, hentry, rfl⟩
      rcases List.eq_nil_or_concat (Path.names path) with hnil | ⟨front, last, hnames⟩
      · simp [hnil]
      · rw [List.concat_eq_append] at hnames
        rw [hnames, List.append_nil] at hwalk
        obtain ⟨hleads, hstep⟩ := walk_concat_eq_ok_iff.mp hwalk
        rw [hnames]
        exact List.forall_mem_append.mpr
          ⟨hleads.2, by simpa using (step_eq_ok_iff.mp hstep).2.1⟩
  · rintro ⟨htrouble, hfine, hslash, hentry, rfl⟩
    obtain ⟨front, last, hnames⟩ := exists_names_of_plain hplain htrouble
    have hleads : tree.Leads tree.here front := by
      refine leads_of_isSome hsound ?_ ?_ (?_ : (tree.get? (tree.here ++ front ++ [last])).isSome)
      · exact fun name hname ↦ hplain.2 name (by simp [hnames, hname])
      · exact fun name hname ↦ hfine name (by simp [hnames, hname])
      · rw [List.append_assoc, ← hnames, ← placeOf_of_plain hplain, hentry]
        rfl
    cases hends : Path.endsInSlash path with
    | false =>
      have hwhole : Path.names path = (Path.names path).dropLast ++ [last] := by
        rw [hnames, List.dropLast_concat]
      refine find_eq_of_last htrouble hends ?_ hwhole (hfine last (by simp [hnames])) hentry
      rwa [hstart, hnames, List.dropLast_concat]
    | true =>
      rw [hslash hends] at hentry ⊢
      refine find_eq_directory_iff.mpr ⟨htrouble, ?_, rfl⟩
      rw [hstart, hnames, leads_concat_iff]
      refine ⟨hleads, hfine last (by simp [hnames]), ?_⟩
      rwa [← hnames, ← hstart]

/-! ### The target of a plain path -/

theorem target_of_leads (hplain : Path.IsPlain path)
    (hleads : tree.Leads tree.here (Path.names path).dropLast) :
    tree.target path = match tree.targetTrouble? path with
      | some trouble => .error trouble
      | none => .ok (tree.placeOf path) := by
  have hstart : tree.start path = tree.here := start_of_plain hplain
  rw [target_eq, targetTrouble?]
  cases htrouble : pathTrouble? path with
  | some trouble =>
    rw [findParent_eq, htrouble]
    rfl
  | none =>
    obtain ⟨front, last, hnames⟩ := exists_names_of_plain hplain htrouble
    have hlast := hplain.2 last (by simp [hnames])
    have hparent : tree.findParent path =
        .ok (placeFrom tree.here (Path.names path).dropLast, some last) :=
      findParent_eq_ok_iff.mpr ⟨htrouble, hstart ▸ hleads, hstart ▸ rfl, by simp [hnames, hlast]⟩
    rw [hparent, (names_of_findParent hparent).2.2.2, hnames, List.getLast?_concat]
    simp only [bind, Except.bind, Option.bind_some]
    cases nameTrouble? last with
    | some trouble => rfl
    | none => simp only [List.dropLast_concat]; split_ifs <;> rfl

/-- Putting a file in place, where the names before the last lead into the directory. -/
theorem install_of_leads (hplain : Path.IsPlain path)
    (hleads : tree.Leads tree.here (Path.names path).dropLast) {directory : List String}
    (hfind : tree.find (workDirectory path) = .ok (directory, .directory)) (content : Content) :
    tree.install path content =
      match (pathTrouble? (tree.workFile path)).or (tree.targetTrouble? path) with
      | some trouble => ⟨tree, some trouble⟩
      | none => ⟨tree.renew (tree.placeOf path) (.file content), none⟩ := by
  rw [install_eq, destination, hfind]
  simp only
  cases pathTrouble? (tree.workFile path) with
  | some trouble => rfl
  | none =>
    simp only [target_of_leads hplain hleads, Option.none_or]
    cases tree.targetTrouble? path <;> rfl

/-- A file can only be put in a directory. -/
theorem install_of_find {content : Content} {place : List String} {entry : Entry}
    (hfind : tree.find (workDirectory path) = .ok (place, entry)) (hentry : entry ≠ .directory) :
    tree.install path content = ⟨tree, some .notADirectory⟩ := by
  rw [install_eq, destination, hfind]
  cases entry with
  | directory => exact absurd rfl hentry
  | file _ | device _ | program _ => rfl

/-! ### The directory of a plain path -/

/-- The directory of a plain path is the working directory, or a plain path with all names of the
path but the last. -/
theorem workDirectory_cases (hplain : Path.IsPlain path) :
    (workDirectory path = "." ∧ (Path.names path).dropLast = []) ∨
    (Path.IsPlain (workDirectory path) ∧ workDirectory path ≠ "" ∧
      Path.endsInSlash (workDirectory path) = false ∧
      Path.names (workDirectory path) = (Path.names path).dropLast) := by
  by_cases hpath : path = ""
  · rw [hpath]
    exact .inl ⟨rfl, by decide⟩
  obtain ⟨parent, last, hparent, hdirectory, hnames, -⟩ := hplain.exists_parent? hpath
  rw [workDirectory, hparent, hnames, List.dropLast_concat]
  simp only
  by_cases hempty : parent = ""
  · rw [if_pos hempty, hempty]
    exact .inl ⟨rfl, by decide⟩
  · rw [if_neg hempty]
    exact .inr ⟨hdirectory, hempty, Path.endsInSlash_parent? hplain.1 hparent, rfl⟩

/-- The directory of a plain path is found just where its names lead into one. -/
theorem find_workDirectory (hhere : tree.get? tree.here = some .directory)
    (hplain : Path.IsPlain path) (htrouble : pathTrouble? (workDirectory path) = none)
    (hleads : tree.Leads tree.here (Path.names path).dropLast) :
    ∃ directory, tree.find (workDirectory path) = .ok (directory, .directory) := by
  refine ⟨_, find_eq_directory_iff.mpr ⟨htrouble, ?_, rfl⟩⟩
  rcases workDirectory_cases hplain with ⟨hdot, -⟩ | ⟨hproper, -, -, hnames⟩
  · rw [hdot, show Path.names "." = ["."] by decide, show tree.start "." = tree.here by rfl,
      leads_cons_iff]
    exact ⟨hhere, by decide, leads_nil_iff.mpr hhere⟩
  · rwa [hnames, start_of_plain hproper]

/-- Where a path leads to something, nothing is made. -/
theorem ensureDirectory_of_find {found : List String × Entry} (hfind : tree.find path = .ok found) :
    tree.ensureDirectory path = ⟨tree, none⟩ := by
  rw [ensureDirectory, exists?, hfind, if_pos (by simp [Except.isOk, Except.toBool])]

/-- Where a plain path without a slash at its end leads nowhere, nothing blocks its place. -/
theorem blocks_of_find_error (hsound : tree.Sound) (hplain : Path.IsPlain path)
    (hslash : Path.endsInSlash path = false) (htrouble : pathTrouble? path = none)
    (hfine : ∀ name ∈ Path.names path, nameTrouble? name = none) {trouble : FileTrouble}
    (hfind : tree.find path = .error trouble) :
    tree.blocks (tree.here ++ Path.names path) = false := by
  rw [← Bool.not_eq_true]
  intro hblocks
  obtain ⟨entry, hentry⟩ : ∃ entry, tree.get? (tree.here ++ Path.names path) = some entry :=
    Option.isSome_iff_exists.mp (Option.isSome_of_any hblocks)
  rw [← placeOf_of_plain hplain] at hentry
  have hfound := (find_eq_ok_iff_of_plain hsound hplain).mpr
    ⟨htrouble, hfine, fun h ↦ absurd (hslash.symm.trans h) (by simp), hentry, rfl⟩
  exact absurd (hfind.symm.trans hfound) (by simp)

/-- The way to what is not a directory is stopped there, with all directories before it made. -/
theorem follows_of_find (hsound : tree.Sound) (hplain : Path.IsPlain path) {place : List String}
    {entry : Entry} (hfind : tree.find path = .ok (place, entry)) (hentry : entry ≠ .directory) :
    Follows tree ⟨tree, some .notADirectory⟩ (tree.way tree.here (Path.names path)) := by
  obtain ⟨htrouble, hfine, -, hfound, -⟩ := (find_eq_ok_iff_of_plain hsound hplain).mp hfind
  obtain ⟨front, last, hnames⟩ := exists_names_of_plain hplain htrouble
  have hproper := hplain.2
  rw [placeOf_of_plain hplain, hnames, ← List.append_assoc] at hfound
  rw [hnames] at hproper hfine ⊢
  obtain ⟨hproper, -⟩ := List.forall_mem_append.mp hproper
  obtain ⟨hfine, hlast⟩ := List.forall_mem_append.mp hfine
  obtain ⟨hway, hall⟩ := way_of_leads hsound hproper
    (leads_of_isSome hsound hproper hfine (by rw [hfound]; rfl))
  have hblocks : tree.blocks (tree.here ++ front ++ [last]) = true := by
    rw [blocks, hfound]
    simpa using hentry
  simp only [way_concat last hway, hlast last List.mem_cons_self, hblocks, if_true]
  exact ⟨rfl, (Follows.of_directories hall).get?⟩

/-- Seeing to the directory of a plain path follows the way to it. The way may only be stopped by
what is at its end as well, which is not noticed then. -/
theorem ensureDirectory_follows (hsound : tree.Sound) (hplain : Path.IsPlain path)
    (htrouble : pathTrouble? (workDirectory path) = none) :
    let way := tree.way tree.here (Path.names path).dropLast
    Follows tree (tree.ensureDirectory (workDirectory path)) way ∨
      (tree.ensureDirectory (workDirectory path) = ⟨tree, none⟩ ∧
        Follows tree ⟨tree, some .notADirectory⟩ way ∧
        ∃ place entry, entry ≠ .directory ∧
          tree.find (workDirectory path) = .ok (place, entry)) := by
  intro way
  by_cases hleads : tree.Leads tree.here (Path.names path).dropLast
  · obtain ⟨directory, hfind⟩ := find_workDirectory hsound.here hplain htrouble hleads
    obtain ⟨hway, hall⟩ := way_of_leads hsound
      (fun name hname ↦ hplain.2 name (List.dropLast_subset _ hname)) hleads
    have hfollows := Follows.of_directories hall
    rw [hway] at hfollows
    rw [ensureDirectory_of_find hfind]
    exact .inl hfollows
  rcases workDirectory_cases hplain with ⟨-, hnil⟩ | ⟨hdirectory, hempty, hslash, hnames⟩
  · exact absurd (hnil ▸ leads_nil_iff.mpr hsound.here) hleads
  rw [← hnames] at hleads
  cases hfind : tree.find (workDirectory path) with
  | error trouble =>
    have hmissing : tree.exists? (workDirectory path) = false := by rw [exists?, hfind]; rfl
    simp only [ensureDirectory, hempty, hmissing, way, ← hnames]
    exact .inl (makeDirectoriesWith_follows hsound hdirectory (.inr htrouble)
      (fun hfine ↦ blocks_of_find_error hsound hdirectory hslash htrouble hfine hfind)
      (Nat.lt_succ_self _))
  | ok found =>
    obtain ⟨place, entry⟩ := found
    have hentry : entry ≠ .directory := by
      rintro rfl
      exact hleads (start_of_plain hdirectory ▸ (find_eq_directory_iff.mp hfind).2.1)
    simp only [way, ← hnames]
    exact .inr ⟨ensureDirectory_of_find hfind, follows_of_find hsound hdirectory hfind hentry,
      place, entry, hentry, rfl⟩

/-- Where the directory of a plain path can be none, it is not made. -/
theorem ensureDirectory_of_pathTrouble (hplain : Path.IsPlain path) {trouble : FileTrouble}
    (htrouble : pathTrouble? (workDirectory path) = some trouble) :
    tree.ensureDirectory (workDirectory path) = ⟨tree, some trouble⟩ := by
  rcases workDirectory_cases hplain with ⟨hdot, -⟩ | ⟨hdirectory, hempty, -, -⟩
  · rw [hdot, show pathTrouble? "." = none by decide] at htrouble
    exact nomatch htrouble
  have hmissing : tree.exists? (workDirectory path) = false := by
    rw [exists?, find_eq, htrouble]
    rfl
  have hmade : tree.makeDirectory (workDirectory path) = .error trouble := by
    rw [makeDirectory_eq, findParent_eq, htrouble]
    rfl
  have hother : trouble ≠ .notFound := by
    rintro rfl
    unfold pathTrouble? at htrouble
    split_ifs at htrouble <;> simp_all
  have hnot : ¬tree.isDirectory (workDirectory path) = true := fun h ↦
    absurd ((isDirectory_iff.mp h).1.symm.trans htrouble) (by simp)
  simp only [ensureDirectory, hempty, hmissing, makeDirectories]
  rw [makeDirectoriesWith_succ hempty (by simp [hmade, hother]), settle, hmade]
  simp only [hnot]
  rfl

/-! ### The plan of a write -/

/-- Whether a file can be put at the place of a path depends on a directory being there only. -/
theorem targetTrouble?_congr {other : FileTree} (hhere : other.here = tree.here)
    (hdirectory : pathTrouble? path = none → (other.get? (tree.placeOf path) = some .directory ↔
      tree.get? (tree.placeOf path) = some .directory)) :
    other.targetTrouble? path = tree.targetTrouble? path := by
  rw [targetTrouble?, targetTrouble?, placeOf_congr hhere]
  cases htrouble : pathTrouble? path with
  | some trouble => rw [Option.some_or, Option.some_or]
  | none => simp only [hdirectory htrouble]

/-- A plain path does not name the top. -/
theorem placeOf_ne_nil (hplain : Path.IsPlain path) (htrouble : pathTrouble? path = none) :
    tree.placeOf path ≠ [] := by
  obtain ⟨front, last, hnames⟩ := exists_names_of_plain hplain htrouble
  rw [placeOf_of_plain hplain, hnames]
  simp

/-- The place of a path is not on the way to its directory. -/
theorem placeOf_notMem_way (hplain : Path.IsPlain path) (htrouble : pathTrouble? path = none) :
    tree.placeOf path ∉ (tree.way tree.here (Path.names path).dropLast).1 := by
  intro hmem
  obtain ⟨front, last, hnames⟩ := exists_names_of_plain hplain htrouble
  obtain ⟨-, some, hsome, hplace⟩ := exists_prefix_of_mem_way hmem
  rw [placeOf_of_plain hplain, hnames, List.append_right_inj] at hplace
  rw [hnames, List.dropLast_concat] at hsome
  have hlength := hsome.length_le
  rw [← hplace, List.length_append, List.length_singleton] at hlength
  omega

/-- Putting a file in place, once the directories on the way to it have been made. -/
theorem install_of_follows (hplain : Path.IsPlain path)
    (htrouble : pathTrouble? (workDirectory path) = none) {made : Change}
    (hhere : made.tree.here = tree.here)
    (hfollows : Follows tree made (tree.way tree.here (Path.names path).dropLast))
    (hmade : made.trouble = none) (content : Content) :
    made.tree.install path content =
      match (pathTrouble? (tree.workFile path)).or (tree.targetTrouble? path) with
      | some trouble => ⟨made.tree, some trouble⟩
      | none => ⟨made.tree.renew (tree.placeOf path) (.file content), none⟩ := by
  obtain ⟨hfine, hfronts⟩ := way_snd_eq_none (hfollows.trouble.symm.trans hmade)
  have hproper : ∀ name ∈ (Path.names path).dropLast, name ≠ "." ∧ name ≠ ".." :=
    fun name hname ↦ hplain.2 name (List.dropLast_subset _ hname)
  have hleads : made.tree.Leads made.tree.here (Path.names path).dropLast := by
    rw [hhere]
    refine (leads_iff_of_plain hproper).mpr ⟨fun front hfront ↦ ?_, hfine⟩
    rw [hfollows.get?, if_pos (hfronts front hfront)]
  obtain ⟨directory, hfind⟩ :=
    find_workDirectory (hleads.1 [] List.nil_prefix) hplain htrouble hleads
  have htarget : made.tree.targetTrouble? path = tree.targetTrouble? path :=
    targetTrouble?_congr hhere fun hpath ↦ by
      rw [hfollows.get?, if_neg (placeOf_notMem_way hplain hpath)]
  rw [install_of_leads hplain hleads hfind, workFile_congr hhere, htarget, placeOf_congr hhere]

/-- Replacing the file of a plain path in a sound tree does what its plan says. -/
theorem writeAtomic_follows (hsound : tree.Sound) (hplain : Path.IsPlain path)
    (content : Content) :
    (tree.writeAtomic path content).trouble = (tree.plan path).2 ∧
      ∀ place, (tree.writeAtomic path content).tree.get? place =
        if (tree.plan path).2 = none ∧ place = tree.placeOf path then some (.file content)
        else if place ∈ (tree.plan path).1 then some .directory
        else tree.get? place := by
  have hhere := (grown_ensureDirectory tree (workDirectory path)).here
  unfold writeAtomic plan
  simp only
  cases htrouble : pathTrouble? (workDirectory path) with
  | some trouble =>
    rw [ensureDirectory_of_pathTrouble hplain htrouble]
    simp
  | none =>
    rcases ensureDirectory_follows hsound hplain htrouble with
      hfollows | ⟨hensure, hfollows, place, entry, hentry, hfind⟩
    · cases hmade : (tree.ensureDirectory (workDirectory path)).trouble with
      | some trouble =>
        rw [if_pos Option.isSome_some, ← hfollows.trouble, hmade]
        refine ⟨rfl, fun place ↦ ?_⟩
        rw [hfollows.get?]
        simp
      | none =>
        rw [if_neg (by simp), install_of_follows hplain htrouble hhere hfollows hmade,
          ← hfollows.trouble, hmade, Option.none_or]
        cases hplan : (pathTrouble? (tree.workFile path)).or (tree.targetTrouble? path) with
        | some trouble =>
          refine ⟨rfl, fun place ↦ ?_⟩
          rw [hfollows.get?]
          simp
        | none =>
          have hpath : pathTrouble? path = none := by
            simp only [targetTrouble?, Option.or_eq_none_iff] at hplan
            exact hplan.2.1
          refine ⟨rfl, fun place ↦ ?_⟩
          rw [get?_renew _ _ _ (placeOf_ne_nil hplain hpath), hfollows.get?]
          simp
    · rw [hensure, if_neg (by simp), install_of_find hfind hentry, ← hfollows.trouble]
      refine ⟨rfl, fun place ↦ ?_⟩
      simpa using hfollows.get? place

/-- The directories of a plan are free, and stand above the place of the path. -/
theorem exists_prefix_of_mem_plan {place : List String} (h : place ∈ (tree.plan path).1) :
    tree.blocks place = false ∧
      ∃ front, front <+: (Path.names path).dropLast ∧ place = tree.here ++ front := by
  unfold plan at h
  split at h
  · exact nomatch h
  · exact exists_prefix_of_mem_way h

theorem plan_snd_eq_none (h : (tree.plan path).2 = none) :
    pathTrouble? path = none ∧ (tree.way tree.here (Path.names path).dropLast).2 = none ∧
      (tree.plan path).1 = (tree.way tree.here (Path.names path).dropLast).1 := by
  unfold plan at h ⊢
  split at h
  · exact nomatch h
  · simp only [targetTrouble?, Option.or_eq_none_iff] at h
    exact ⟨h.2.2.1, h.1, rfl⟩

/-- A place of a plan is where it starts, or comes after one of the plan. -/
theorem eq_or_dropLast_mem_plan {place : List String} (h : place ∈ (tree.plan path).1) :
    place = tree.here ∨ place.dropLast ∈ (tree.plan path).1 := by
  unfold plan at h ⊢
  split at h
  · exact nomatch h
  · exact dropLast_mem_way h

/-- The directory that a file is put in is one of the plan. -/
theorem directory_mem_plan (hplain : Path.IsPlain path) (h : (tree.plan path).2 = none) :
    (tree.placeOf path).dropLast ∈ (tree.plan path).1 := by
  obtain ⟨hpath, hstop, hway⟩ := plan_snd_eq_none h
  obtain ⟨front, last, hnames⟩ := exists_names_of_plain hplain hpath
  rw [hnames, List.dropLast_concat] at hstop hway
  rw [hway, placeOf_of_plain hplain, hnames, ← List.append_assoc, List.dropLast_concat]
  exact (way_snd_eq_none hstop).2 _ List.prefix_rfl

/-- The plan is the same in a tree that is not blocked elsewhere on the way and has no directory
more or less at the place of the path. -/
theorem plan_congr {other : FileTree} (hhere : other.here = tree.here)
    (hblocks : ∀ front, front <+: (Path.names path).dropLast →
      other.blocks (tree.here ++ front) = tree.blocks (tree.here ++ front))
    (hplace : other.get? (tree.placeOf path) = tree.get? (tree.placeOf path)) :
    other.plan path = tree.plan path := by
  have htarget : other.targetTrouble? path = tree.targetTrouble? path :=
    targetTrouble?_congr hhere fun _ ↦ by rw [hplace]
  unfold plan
  rw [hhere, way_congr hblocks, workFile_congr hhere, htarget]

/-- A write leaves a sound tree sound: what it makes stands in directories of its plan. -/
theorem Sound.writeAtomic (hsound : tree.Sound) (hplain : Path.IsPlain path) (content : Content) :
    (tree.writeAtomic path content).tree.Sound := by
  obtain ⟨-, hget⟩ := writeAtomic_follows hsound hplain content
  have hkept : ∀ place, tree.get? place = some .directory →
      (tree.writeAtomic path content).tree.get? place = some .directory :=
    fun _ ↦ directory_of_writeAtomic path content
  have hhere := here_writeAtomic tree path content
  have hplanned : ∀ place ∈ (tree.plan path).1,
      (tree.writeAtomic path content).tree.get? place = some .directory := fun place hplace ↦ by
    rw [hget, if_pos hplace]
    split_ifs with hdone
    · obtain ⟨hpath, -, hway⟩ := plan_snd_eq_none hdone.1
      rw [hdone.2, hway] at hplace
      exact absurd hplace (placeOf_notMem_way hplain hpath)
    · rfl
  refine ⟨by rw [hhere]; exact hkept _ hsound.here, fun place hsome ↦ ?_⟩
  rw [hget] at hsome
  split_ifs at hsome with hdone hplace
  · rw [hdone.2]
    exact hplanned _ (directory_mem_plan hplain hdone.1)
  · rcases eq_or_dropLast_mem_plan hplace with hstart | hdrop
    · rw [hstart]
      exact hkept _ (hsound.above _ (by rw [hsound.here]; rfl))
    · exact hplanned _ hdrop
  · exact hkept _ (hsound.above _ hsome)

end Plain

end Bindery.FileTree
