import Bindery.FileTree
import Bindery.Proofs.Traversal
import Mathlib.Data.List.Infix

/-!
# Where paths lead

`placeOf` is the place that a path names, whatever a tree holds there, and `waypoints` are the
places that its beginnings name. Names lead into a directory (`Leads`) when every place on their
way is one and every name can be that of an entry; this is just when a walk along them can go on
from where it arrives (`walk_dot_eq_ok_iff`), and what it takes for a path to lead to a directory
(`find_eq_directory_iff`).
-/

set_option autoImplicit false
set_option relaxedAutoImplicit false

namespace Bindery.FileTree

open Traversal

/-- The place that a name leads to from a directory. -/
def descend (place : List String) (name : String) : List String :=
  if name = "." then place else if name = ".." then place.dropLast else place ++ [name]

/-- The place that some names lead to. -/
def placeFrom (place : List String) (names : List String) : List String := names.foldl descend place

/-- The place that a path names. -/
def placeOf (tree : FileTree) (path : String) : List String :=
  placeFrom (tree.start path) (Path.names path)

/-- The places that the beginnings of a path name, the place of the path itself among them. -/
def waypoints (tree : FileTree) (path : String) : List (List String) :=
  (Path.names path).inits.map (placeFrom (tree.start path))

/-- Every place on the way of some names is a directory, and no name is too long. -/
def Leads (tree : FileTree) (place names : List String) : Prop :=
  (∀ front, front <+: names → tree.get? (placeFrom place front) = some .directory) ∧
    ∀ name ∈ names, nameTrouble? name = none

theorem placeFrom_append (place names more : List String) :
    placeFrom place (names ++ more) = placeFrom (placeFrom place names) more :=
  List.foldl_append

theorem placeFrom_steps (tree : FileTree) (path : String) :
    placeFrom (tree.start path) (Path.steps path) = tree.placeOf path := by
  rw [Path.steps, placeFrom_append]
  split <;> rfl

theorem mem_waypoints {tree : FileTree} {path : String} {place : List String} :
    place ∈ tree.waypoints path ↔
      ∃ front, front <+: Path.names path ∧ placeFrom (tree.start path) front = place := by
  simp only [waypoints, List.mem_map, List.mem_inits]

theorem placeOf_mem_waypoints (tree : FileTree) (path : String) :
    tree.placeOf path ∈ tree.waypoints path :=
  mem_waypoints.mpr ⟨_, List.prefix_rfl, rfl⟩

theorem start_congr {tree other : FileTree} (hhere : other.here = tree.here) (path : String) :
    other.start path = tree.start path := by
  rw [start, start, hhere]

theorem waypoints_congr {tree other : FileTree} (hhere : other.here = tree.here) (path : String) :
    other.waypoints path = tree.waypoints path := by
  rw [waypoints, waypoints, start_congr hhere]

theorem placeOf_congr {tree other : FileTree} (hhere : other.here = tree.here) (path : String) :
    other.placeOf path = tree.placeOf path := by
  rw [placeOf, placeOf, start_congr hhere]

/-- Names lead into the same directories of a tree that has all directories of another. -/
theorem Leads.of_directories {tree other : FileTree} {place names : List String}
    (h : tree.Leads place names)
    (hkeeps : ∀ q, tree.get? q = some .directory → other.get? q = some .directory) :
    other.Leads place names :=
  ⟨fun front hfront ↦ hkeeps _ (h.1 front hfront), h.2⟩

/-! ### Steps and walks -/

theorem nameTrouble?_dot : nameTrouble? "." = none := by decide

theorem nameTrouble?_dots : nameTrouble? ".." = none := by decide

theorem step_eq_ok_iff {tree : FileTree} {place next : List String} {name : String} :
    tree.step place name = .ok next ↔
      tree.get? place = some .directory ∧ nameTrouble? name = none ∧ next = descend place name ∧
        (name ≠ "." → name ≠ ".." → (tree.get? next).isSome) := by
  unfold step descend
  cases hplace : tree.get? place with
  | none => simp
  | some entry =>
    cases entry with
    | file content => simp
    | device device => simp
    | program name => simp
    | directory =>
      simp only [true_and]
      by_cases hdot : name = "."
      · rw [if_pos hdot, if_pos hdot]
        exact ⟨fun h ↦ ⟨hdot ▸ nameTrouble?_dot, (Except.ok.inj h).symm, (absurd hdot ·)⟩,
          fun h ↦ congrArg _ h.2.1.symm⟩
      by_cases hdots : name = ".."
      · rw [if_neg hdot, if_neg hdot, if_pos hdots, if_pos hdots]
        exact ⟨fun h ↦ ⟨hdots ▸ nameTrouble?_dots, (Except.ok.inj h).symm,
          fun _ ↦ (absurd hdots ·)⟩, fun h ↦ congrArg _ h.2.1.symm⟩
      simp only [hdot, hdots, if_false, ne_eq, not_false_eq_true, forall_const]
      cases nameTrouble? name with
      | some trouble => simp
      | none =>
        cases hnext : tree.get? (place ++ [name]) with
        | none =>
          refine ⟨fun h ↦ (nomatch h), fun h ↦ ?_⟩
          rw [h.2.1, hnext] at h
          exact nomatch h.2.2
        | some entry =>
          refine ⟨fun h ↦ ?_, fun h ↦ by rw [h.2.1]⟩
          rw [← Except.ok.inj h]
          exact ⟨rfl, rfl, by rw [hnext]; rfl⟩

theorem walk_cons (tree : FileTree) (place : List String) (name : String) (names : List String) :
    tree.walk place (name :: names) = tree.step place name >>= fun next ↦ tree.walk next names :=
  rfl

theorem walk_singleton (tree : FileTree) (place : List String) (name : String) :
    tree.walk place [name] = tree.step place name := by
  rw [walk_cons]
  cases tree.step place name <;> rfl

theorem walk_append (tree : FileTree) (place names more : List String) :
    tree.walk place (names ++ more) = tree.walk place names >>= fun next ↦ tree.walk next more :=
  List.foldlM_append

/-- A walk arrives at the place that its names lead to. -/
theorem placeFrom_of_walk {tree : FileTree} {place final : List String} {names : List String}
    (h : tree.walk place names = .ok final) : final = placeFrom place names := by
  induction names generalizing place with
  | nil => exact (Except.ok.inj h).symm
  | cons name names ih =>
    rw [walk_cons, bind_eq_ok_iff] at h
    obtain ⟨next, hstep, hrest⟩ := h
    obtain ⟨-, -, rfl, -⟩ := step_eq_ok_iff.mp hstep
    exact ih hrest

theorem leads_nil_iff {tree : FileTree} {place : List String} :
    tree.Leads place [] ↔ tree.get? place = some .directory := by
  refine ⟨fun h ↦ h.1 [] List.prefix_rfl, fun h ↦ ⟨fun front hfront ↦ ?_, fun _ h ↦ nomatch h⟩⟩
  rwa [List.prefix_nil.mp hfront]

theorem leads_cons_iff {tree : FileTree} {place names : List String} {name : String} :
    tree.Leads place (name :: names) ↔
      tree.get? place = some .directory ∧ nameTrouble? name = none ∧
        tree.Leads (descend place name) names := by
  constructor
  · rintro ⟨hfronts, htroubles⟩
    rw [List.forall_mem_cons] at htroubles
    refine ⟨hfronts [] List.nil_prefix, htroubles.1, fun front hfront ↦ ?_, htroubles.2⟩
    exact hfronts (name :: front) (List.cons_prefix_cons.mpr ⟨rfl, hfront⟩)
  · rintro ⟨hplace, htrouble, hfronts, htroubles⟩
    refine ⟨fun front hfront ↦ ?_, List.forall_mem_cons.mpr ⟨htrouble, htroubles⟩⟩
    cases front with
    | nil => exact hplace
    | cons first front =>
      obtain ⟨rfl, htail⟩ := List.cons_prefix_cons.mp hfront
      exact hfronts front htail

/-- A last step is taken exactly when the names before it lead into a directory. -/
theorem walk_concat_eq_ok_iff {tree : FileTree} {place final names : List String} {name : String} :
    tree.walk place (names ++ [name]) = .ok final ↔
      tree.Leads place names ∧ tree.step (placeFrom place names) name = .ok final := by
  induction names generalizing place with
  | nil =>
    rw [List.nil_append, walk_singleton, leads_nil_iff]
    exact (and_iff_right_of_imp fun h ↦ (step_eq_ok_iff.mp h).1).symm
  | cons first names ih =>
    rw [List.cons_append, walk_cons, bind_eq_ok_iff, leads_cons_iff]
    constructor
    · rintro ⟨next, hfirst, hrest⟩
      obtain ⟨hplace, htrouble, rfl, -⟩ := step_eq_ok_iff.mp hfirst
      obtain ⟨hleads, hstep⟩ := ih.mp hrest
      exact ⟨⟨hplace, htrouble, hleads⟩, hstep⟩
    · rintro ⟨⟨hplace, htrouble, hleads⟩, hstep⟩
      refine ⟨descend place first, step_eq_ok_iff.mpr ⟨hplace, htrouble, rfl, fun _ _ ↦ ?_⟩,
        ih.mpr ⟨hleads, hstep⟩⟩
      rw [show tree.get? (descend place first) = some .directory from hleads.1 [] List.nil_prefix]
      rfl

/-- A walk can go on from where it arrives exactly when its names lead into a directory. -/
theorem walk_dot_eq_ok_iff {tree : FileTree} {place final : List String} {names : List String} :
    tree.walk place (names ++ ["."]) = .ok final ↔
      tree.Leads place names ∧ final = placeFrom place names := by
  rw [walk_concat_eq_ok_iff]
  refine and_congr_right fun hleads ↦ ?_
  rw [step_eq_ok_iff]
  exact ⟨fun h ↦ h.2.2.1, fun h ↦
    ⟨hleads.1 _ List.prefix_rfl, nameTrouble?_dot, h, fun hdot ↦ absurd rfl hdot⟩⟩

/-! ### Paths -/

theorem find_eq (tree : FileTree) (path : String) :
    tree.find path = match pathTrouble? path with
      | some trouble => .error trouble
      | none => tree.walk (tree.start path) (Path.steps path) >>= fun place ↦
        match tree.get? place with
        | some entry => .ok (place, entry)
        | none => .error .notFound := by
  unfold find
  cases pathTrouble? path <;> rfl

theorem findParent_eq (tree : FileTree) (path : String) :
    tree.findParent path = match pathTrouble? path with
      | some trouble => .error trouble
      | none =>
        (tree.walk (tree.start path) ((Path.names path).dropLast ++ ["."])).map fun place ↦
          (place, (Path.names path).getLast?.filter fun name ↦ name ≠ "." && name ≠ "..") := by
  unfold findParent
  cases pathTrouble? path with
  | some trouble => rfl
  | none =>
    change tree.walk _ _ >>= _ = _
    cases tree.walk (tree.start path) ((Path.names path).dropLast ++ ["."]) <;> rfl

theorem find_eq_ok_iff {tree : FileTree} {path : String} {place : List String} {entry : Entry} :
    tree.find path = .ok (place, entry) ↔
      pathTrouble? path = none ∧ tree.walk (tree.start path) (Path.steps path) = .ok place ∧
        tree.get? place = some entry := by
  rw [find_eq]
  cases pathTrouble? path with
  | some trouble => simp
  | none =>
    rw [bind_eq_ok_iff]
    constructor
    · rintro ⟨found, hwalk, hfound⟩
      split at hfound
      · rename_i other hother
        obtain ⟨rfl, rfl⟩ := Prod.mk.inj (Except.ok.inj hfound)
        exact ⟨rfl, hwalk, hother⟩
      · exact nomatch hfound
    · rintro ⟨-, hwalk, hentry⟩
      exact ⟨place, hwalk, by rw [hentry]⟩

/-- A path leads to a directory exactly when its names do. -/
theorem find_eq_directory_iff {tree : FileTree} {path : String} {place : List String} :
    tree.find path = .ok (place, .directory) ↔
      pathTrouble? path = none ∧ tree.Leads (tree.start path) (Path.names path) ∧
        place = tree.placeOf path := by
  rw [find_eq_ok_iff]
  refine and_congr_right fun _ ↦ ?_
  have hdot : ∀ names, tree.walk (tree.start path) (names ++ ["."]) = .ok place ↔
      tree.walk (tree.start path) names = .ok place ∧ tree.get? place = some .directory := by
    intro names
    rw [walk_append, bind_eq_ok_iff]
    simp only [walk_singleton, step_eq_ok_iff, descend, if_true, ne_eq, not_true_eq_false,
      false_implies, and_true]
    constructor
    · rintro ⟨next, hwalk, hnext, -, rfl⟩
      exact ⟨hwalk, hnext⟩
    · rintro ⟨hwalk, hplace⟩
      exact ⟨place, hwalk, hplace, nameTrouble?_dot, rfl⟩
  have hleads : tree.walk (tree.start path) (Path.names path ++ ["."]) = .ok place ↔
      tree.Leads (tree.start path) (Path.names path) ∧ place = tree.placeOf path :=
    walk_dot_eq_ok_iff
  rw [Path.steps]
  split_ifs
  · rw [hleads]
    refine and_iff_left_of_imp fun h ↦ ?_
    rw [h.2]
    exact h.1.1 _ List.prefix_rfl
  · rw [List.append_nil, ← hdot, hleads]

/-- A path leads to the place that it names. -/
theorem place_of_find {tree : FileTree} {path : String} {place : List String} {entry : Entry}
    (h : tree.find path = .ok (place, entry)) : place = tree.placeOf path := by
  obtain ⟨-, hwalk, -⟩ := find_eq_ok_iff.mp h
  rw [placeFrom_of_walk hwalk, placeFrom_steps]

/-- A path leads to what is at its last name, if its other names lead into the directory. -/
theorem find_eq_of_last {tree : FileTree} {path name : String} {entry : Entry}
    (htrouble : pathTrouble? path = none) (hslash : Path.endsInSlash path = false)
    (hleads : tree.Leads (tree.start path) (Path.names path).dropLast)
    (hnames : Path.names path = (Path.names path).dropLast ++ [name])
    (hname : nameTrouble? name = none) (hentry : tree.get? (tree.placeOf path) = some entry) :
    tree.find path = .ok (tree.placeOf path, entry) := by
  refine find_eq_ok_iff.mpr ⟨htrouble, ?_, hentry⟩
  rw [Path.steps, hslash, if_neg (by simp), List.append_nil, placeOf]
  rw [placeOf] at hentry
  generalize (Path.names path).dropLast = front at hnames hleads
  rw [hnames] at hentry ⊢
  refine walk_concat_eq_ok_iff.mpr ⟨hleads, step_eq_ok_iff.mpr
    ⟨hleads.1 _ List.prefix_rfl, hname, placeFrom_append _ _ _, fun _ _ ↦ ?_⟩⟩
  rw [hentry]
  rfl

/-- Every beginning of a path that leads to a directory names a directory. -/
theorem directory_of_mem_waypoints {tree : FileTree} {path : String} {place other : List String}
    (h : tree.find path = .ok (place, .directory)) (hother : other ∈ tree.waypoints path) :
    tree.get? other = some .directory := by
  obtain ⟨front, hfront, rfl⟩ := mem_waypoints.mp hother
  exact (find_eq_directory_iff.mp h).2.1.1 front hfront

theorem findParent_eq_ok_iff {tree : FileTree} {path : String} {place : List String}
    {name : Option String} :
    tree.findParent path = .ok (place, name) ↔
      pathTrouble? path = none ∧ tree.Leads (tree.start path) (Path.names path).dropLast ∧
        place = placeFrom (tree.start path) (Path.names path).dropLast ∧
        (Path.names path).getLast?.filter (fun name ↦ name ≠ "." && name ≠ "..") = name := by
  rw [findParent_eq]
  cases pathTrouble? path with
  | some trouble => simp
  | none =>
    simp only [true_and]
    rw [← and_assoc, ← walk_dot_eq_ok_iff]
    cases tree.walk (tree.start path) ((Path.names path).dropLast ++ ["."]) with
    | error trouble => simp [Except.map]
    | ok found => simp [Except.map]

/-- The last name of a path and the directory that it stands in. -/
theorem names_of_findParent {tree : FileTree} {path name : String} {place : List String}
    (h : tree.findParent path = .ok (place, some name)) :
    Path.names path = (Path.names path).dropLast ++ [name] ∧ name ≠ "." ∧ name ≠ ".." ∧
      tree.placeOf path = place ++ [name] := by
  obtain ⟨-, -, rfl, hname⟩ := findParent_eq_ok_iff.mp h
  obtain ⟨hlast, hproper⟩ := Option.filter_eq_some_iff.mp hname
  have hnames : Path.names path = (Path.names path).dropLast ++ [name] := by
    rw [List.dropLast_append_getLast? name hlast]
  simp only [Bool.and_eq_true, decide_eq_true_eq] at hproper
  refine ⟨hnames, hproper.1, hproper.2, ?_⟩
  conv_lhs => rw [placeOf, hnames, placeFrom_append]
  simp [placeFrom, descend, hproper]

end Bindery.FileTree
