import Bindery.Proofs.FileTree.Directories

/-!
# The way of a plain path

In a `Sound` tree every entry stands in a directory. The `way` of some names from a place is made of
the places that directories can be made at until something stops it: a name that is too long, or an
entry that is no directory. It depends on a tree only through what `blocks` it (`way_congr`), so
neither a file elsewhere nor a new directory changes it. A walk along the names arrives, fails as
the way is stopped, or comes to a place that is missing (`walk_dot_cases`).
-/

set_option autoImplicit false
set_option relaxedAutoImplicit false

namespace Bindery.FileTree

open Traversal

/-- Every entry of a tree stands in a directory, and the working directory is one. -/
structure Sound (tree : FileTree) : Prop where
  here : tree.get? tree.here = some .directory
  above : ∀ place, (tree.get? place).isSome → tree.get? place.dropLast = some .directory

theorem isSome_get?_iff {tree : FileTree} {place : List String} :
    (tree.get? place).isSome ↔ place = [] ∨ ∃ entry ∈ tree.entries, entry.1 = place := by
  rcases eq_or_ne place [] with rfl | hplace
  · simp
  · have hempty : place.isEmpty = false := by simpa using hplace
    rw [get?, hempty, if_neg (by simp), ← not_iff_not, Option.not_isSome_iff_eq_none,
      List.lookup_eq_none_iff, not_or, not_exists]
    simp only [bne_iff_ne, ne_eq, hplace, not_false_eq_true, true_and, not_and]
    exact forall₂_congr fun entry _ ↦ not_congr eq_comm

theorem sound_iff {tree : FileTree} : tree.Sound ↔ tree.get? tree.here = some .directory ∧
    ∀ entry ∈ tree.entries, tree.get? entry.1.dropLast = some .directory := by
  refine ⟨fun h ↦ ⟨h.here, fun entry hentry ↦ h.above _ ?_⟩, fun h ↦ ⟨h.1, fun place hsome ↦ ?_⟩⟩
  · exact isSome_get?_iff.mpr (.inr ⟨entry, hentry, rfl⟩)
  · rcases isSome_get?_iff.mp hsome with rfl | ⟨entry, hentry, rfl⟩
    · rfl
    · exact h.2 entry hentry

instance (tree : FileTree) : Decidable tree.Sound := decidable_of_iff' _ sound_iff

/-- All places above one that holds something are directories. The induction goes up from it. -/
theorem Sound.directory_of_isSome {tree : FileTree} (hsound : tree.Sound)
    {place rest : List String} (hrest : rest ≠ []) (h : (tree.get? (place ++ rest)).isSome) :
    tree.get? place = some .directory := by
  induction rest using List.reverseRecOn with
  | nil => exact absurd rfl hrest
  | append_singleton rest last ih =>
    have habove := hsound.above _ h
    rw [← List.append_assoc, List.dropLast_concat] at habove
    rcases eq_or_ne rest [] with rfl | hne
    · rwa [List.append_nil] at habove
    · exact ih hne (by rw [habove]; rfl)

/-- There is nothing below a place that holds nothing. -/
theorem Sound.get?_append_of_eq_none {tree : FileTree} (hsound : tree.Sound) {place : List String}
    (h : tree.get? place = none) (rest : List String) : tree.get? (place ++ rest) = none := by
  rcases eq_or_ne rest [] with rfl | hrest
  · rwa [List.append_nil]
  · refine Option.not_isSome_iff_eq_none.mp fun hsome ↦ ?_
    exact absurd (h.symm.trans (hsound.directory_of_isSome hrest hsome)) (by simp)

/-- Whether there is something other than a directory at a place. -/
def blocks (tree : FileTree) (place : List String) : Bool :=
  (tree.get? place).any fun entry ↦ entry ≠ .directory

theorem blocks_eq_false_iff {tree : FileTree} {place : List String} :
    tree.blocks place = false ↔
      tree.get? place = none ∨ tree.get? place = some .directory := by
  cases h : tree.get? place with
  | none => simp [blocks, h]
  | some entry => simp [blocks, h]

/-- The places that some names lead through when directories are made as they are missing, and what
stops the way, if anything does. -/
def way (tree : FileTree) (place : List String) :
    List String → List (List String) × Option FileTrouble
  | [] => if tree.blocks place then ([], some .notADirectory) else ([place], none)
  | name :: names =>
    if tree.blocks place then ([], some .notADirectory)
    else match nameTrouble? name with
      | some trouble => ([place], some trouble)
      | none =>
        let beyond := tree.way (place ++ [name]) names
        (place :: beyond.1, beyond.2)

section Way

variable {tree : FileTree}

/-- A place on the way is that of a beginning of the names, and nothing blocks it. -/
theorem exists_prefix_of_mem_way {place other names : List String}
    (h : other ∈ (tree.way place names).1) :
    tree.blocks other = false ∧ ∃ front, front <+: names ∧ other = place ++ front := by
  induction names generalizing place with
  | nil =>
    rw [way] at h
    split_ifs at h with hblocks
    · exact nomatch h
    · obtain rfl := List.mem_singleton.mp h
      exact ⟨by simpa using hblocks, [], List.prefix_rfl, (List.append_nil _).symm⟩
  | cons name names ih =>
    rw [way] at h
    split_ifs at h with hblocks
    · exact nomatch h
    have hplace : tree.blocks place = false ∧
        ∃ front, front <+: name :: names ∧ place = place ++ front :=
      ⟨by simpa using hblocks, [], List.nil_prefix, (List.append_nil _).symm⟩
    split at h
    · obtain rfl := List.mem_singleton.mp h
      exact hplace
    · rcases List.mem_cons.mp h with rfl | hbeyond
      · exact hplace
      · obtain ⟨hfree, front, hfront, rfl⟩ := ih hbeyond
        exact ⟨hfree, name :: front, List.cons_prefix_cons.mpr ⟨rfl, hfront⟩, by simp⟩

/-- A place on the way is where it starts, or comes after one on the way. -/
theorem dropLast_mem_way {place other names : List String}
    (h : other ∈ (tree.way place names).1) :
    other = place ∨ other.dropLast ∈ (tree.way place names).1 := by
  induction names generalizing place with
  | nil =>
    rw [way] at h
    split_ifs at h with hblocks
    · exact nomatch h
    · exact .inl (List.mem_singleton.mp h)
  | cons name names ih =>
    rw [way] at h ⊢
    split_ifs at h ⊢ with hblocks
    · exact nomatch h
    split at h
    · exact .inl (List.mem_singleton.mp h)
    · rcases List.mem_cons.mp h with rfl | hbeyond
      · exact .inl rfl
      · refine .inr ?_
        rcases ih hbeyond with rfl | hdrop
        · rw [List.dropLast_concat]
          exact List.mem_cons_self
        · exact List.mem_cons_of_mem _ hdrop

/-- Nothing stops a way just where no name is too long and nothing blocks a place on it; it goes
through the places of all beginnings of the names then. -/
theorem way_snd_eq_none {place names : List String} (h : (tree.way place names).2 = none) :
    (∀ name ∈ names, nameTrouble? name = none) ∧
      ∀ front, front <+: names → place ++ front ∈ (tree.way place names).1 := by
  induction names generalizing place with
  | nil =>
    rw [way] at h ⊢
    split_ifs at h ⊢ with hblocks
    refine ⟨fun _ hname ↦ (nomatch hname), fun front hfront ↦ ?_⟩
    rw [List.prefix_nil.mp hfront, List.append_nil]
    exact List.mem_cons_self
  | cons name names ih =>
    rw [way] at h ⊢
    split_ifs at h ⊢ with hblocks
    split at h
    · exact nomatch h
    · rename_i hname
      obtain ⟨hnames, hfronts⟩ := ih h
      refine ⟨List.forall_mem_cons.mpr ⟨hname, hnames⟩, fun front hfront ↦ ?_⟩
      cases front with
      | nil =>
        rw [List.append_nil]
        exact List.mem_cons_self
      | cons first front =>
        obtain ⟨rfl, htail⟩ := List.cons_prefix_cons.mp hfront
        rw [List.append_cons place first front]
        exact List.mem_cons_of_mem _ (hfronts front htail)

/-- A way that is stopped goes no further with one name more. -/
theorem way_concat_of_stopped {place names : List String} (last : String)
    (h : (tree.way place names).2 ≠ none) :
    tree.way place (names ++ [last]) = tree.way place names := by
  induction names generalizing place with
  | nil =>
    rw [way] at h
    split_ifs at h with hblocks
    · rw [List.nil_append, way, if_pos hblocks, way, if_pos hblocks]
    · exact absurd rfl h
  | cons name names ih =>
    rw [List.cons_append, way, way]
    rw [way] at h
    split_ifs at h ⊢ with hblocks
    · rfl
    split
    · rfl
    · rename_i hname
      simp only [hname] at h
      rw [ih h]

/-- A way that nothing stops goes one place further with one name more, unless that name is too
long or something blocks the place. -/
theorem way_concat {place names : List String} (last : String)
    (h : (tree.way place names).2 = none) :
    tree.way place (names ++ [last]) = match nameTrouble? last with
      | some trouble => ((tree.way place names).1, some trouble)
      | none =>
        if tree.blocks (place ++ names ++ [last]) then
          ((tree.way place names).1, some .notADirectory)
        else ((tree.way place names).1 ++ [place ++ names ++ [last]], none) := by
  induction names generalizing place with
  | nil =>
    rw [way] at h
    split_ifs at h with hplace
    rw [List.nil_append, way, way, if_neg hplace, if_neg hplace, List.append_nil]
    split
    · rfl
    · rw [way]
      split_ifs <;> rfl
  | cons name names ih =>
    have hplace : tree.blocks place = false := by
      rw [way] at h
      split_ifs at h with hblocks
      simpa using hblocks
    simp only [List.cons_append, way, hplace, Bool.false_eq_true, if_false] at h ⊢
    cases hname : nameTrouble? name with
    | some trouble =>
      simp only [hname] at h
      exact nomatch h
    | none =>
      simp only [hname] at h ⊢
      rw [List.append_cons place name names, ih h]
      split
      · rfl
      · split_ifs <;> rfl

/-- A way depends only on what blocks the places of the beginnings of its names. -/
theorem way_congr {other : FileTree} {place names : List String}
    (h : ∀ front, front <+: names → other.blocks (place ++ front) = tree.blocks (place ++ front)) :
    other.way place names = tree.way place names := by
  induction names generalizing place with
  | nil =>
    have hplace := h [] List.prefix_rfl
    rw [List.append_nil] at hplace
    rw [way, way, hplace]
  | cons name names ih =>
    have hplace := h [] List.nil_prefix
    rw [List.append_nil] at hplace
    rw [way, way, hplace, ih fun front hfront ↦ ?_]
    rw [← List.append_cons]
    exact h _ (List.cons_prefix_cons.mpr ⟨rfl, hfront⟩)

theorem placeFrom_of_plain {place names : List String}
    (h : ∀ name ∈ names, name ≠ "." ∧ name ≠ "..") : placeFrom place names = place ++ names := by
  induction names generalizing place with
  | nil => exact (List.append_nil _).symm
  | cons name names ih =>
    obtain ⟨hname, hnames⟩ := List.forall_mem_cons.mp h
    rw [List.append_cons, ← ih hnames]
    simp [placeFrom, descend, hname]

theorem start_of_plain {path : String} (h : Path.IsPlain path) : tree.start path = tree.here := by
  rw [start, h.1, if_neg (by simp)]

theorem placeOf_of_plain {path : String} (h : Path.IsPlain path) :
    tree.placeOf path = tree.here ++ Path.names path := by
  rw [placeOf, start_of_plain h, placeFrom_of_plain h.2]

/-- Names lead into a directory just when the places of all their beginnings are directories. -/
theorem leads_iff_of_plain {place names : List String}
    (h : ∀ name ∈ names, name ≠ "." ∧ name ≠ "..") :
    tree.Leads place names ↔
      (∀ front, front <+: names → tree.get? (place ++ front) = some .directory) ∧
        ∀ name ∈ names, nameTrouble? name = none := by
  refine and_congr_left fun _ ↦ forall₂_congr fun front hfront ↦ ?_
  rw [placeFrom_of_plain fun name hname ↦ h name (hfront.subset hname)]

theorem nameTrouble?_ne_notFound (name : String) : nameTrouble? name ≠ some .notFound := by
  unfold nameTrouble?
  split_ifs <;> simp

theorem step_of_plain {place : List String} {name : String}
    (hplace : tree.get? place = some .directory) (hname : name ≠ "." ∧ name ≠ "..") :
    tree.step place name = match nameTrouble? name with
      | some trouble => .error trouble
      | none => match tree.get? (place ++ [name]) with
        | none => .error .notFound
        | some _ => .ok (place ++ [name]) := by
  rw [step, hplace]
  simp only [hname, if_false]
  cases nameTrouble? name with
  | some trouble => rfl
  | none => cases tree.get? (place ++ [name]) <;> rfl

theorem leads_concat_iff {place names : List String} {name : String} :
    tree.Leads place (names ++ [name]) ↔ tree.Leads place names ∧ nameTrouble? name = none ∧
      tree.get? (placeFrom place (names ++ [name])) = some .directory := by
  unfold Leads
  simp only [List.prefix_concat_iff, List.forall_mem_append, List.forall_mem_singleton, or_imp,
    forall_and, forall_eq]
  tauto

/-- A walk along plain names in a sound tree arrives where their way ends, or fails as their way is
stopped, or leads to a place that is missing. -/
theorem walk_dot_cases (hsound : tree.Sound) {names : List String}
    (hplain : ∀ name ∈ names, name ≠ "." ∧ name ≠ "..") (place : List String) :
    (tree.Leads place names ∧ (tree.way place names).2 = none) ∨
    (tree.walk place (names ++ ["."]) = .error .notFound ∧ tree.get? (place ++ names) = none) ∨
    ∃ trouble, trouble ≠ .notFound ∧ tree.walk place (names ++ ["."]) = .error trouble ∧
      (tree.way place names).2 = some trouble ∧
      ∀ other ∈ (tree.way place names).1, tree.get? other = some .directory := by
  induction names generalizing place with
  | nil =>
    rw [List.nil_append, walk_singleton, List.append_nil, way]
    cases hplace : tree.get? place with
    | none => exact .inr (.inl ⟨by rw [step, hplace], rfl⟩)
    | some entry =>
      by_cases hentry : entry = .directory
      · rw [hentry] at hplace
        exact .inl ⟨leads_nil_iff.mpr hplace, by simp [blocks, hplace]⟩
      · refine .inr (.inr ⟨.notADirectory, by decide, ?_, ?_⟩)
        · rw [step, hplace]
          cases entry <;> simp_all
        · simp [blocks, hplace, hentry]
  | cons name names ih =>
    obtain ⟨hname, hnames⟩ := List.forall_mem_cons.mp hplain
    rw [List.cons_append, walk_cons, way, leads_cons_iff]
    cases hplace : tree.get? place with
    | none =>
      refine .inr (.inl ⟨?_, hsound.get?_append_of_eq_none hplace _⟩)
      rw [step, hplace]
      rfl
    | some entry =>
      by_cases hentry : entry = .directory
      · rw [hentry] at hplace
        have hfree : tree.blocks place = false := by simp [blocks, hplace]
        rw [if_neg (by simp [hfree]), step_of_plain hplace hname, List.append_cons place name names]
        have hdescend : descend place name = place ++ [name] := by simp [descend, hname]
        rw [hdescend]
        cases htrouble : nameTrouble? name with
        | some trouble =>
          refine .inr (.inr ⟨trouble, ?_, rfl, rfl, fun other hother ↦ ?_⟩)
          · rintro rfl
            exact nameTrouble?_ne_notFound name htrouble
          · rwa [List.mem_singleton.mp hother]
        | none =>
          simp only
          cases hnext : tree.get? (place ++ [name]) with
          | none => exact .inr (.inl ⟨rfl, hsound.get?_append_of_eq_none hnext names⟩)
          | some entry =>
            rcases ih hnames (place ++ [name]) with
              ⟨hleads, hway⟩ | hmissing | ⟨trouble, hother, hwalk, hstop, hall⟩
            · exact .inl ⟨⟨congrArg _ hentry, trivial, hleads⟩, hway⟩
            · exact .inr (.inl hmissing)
            · exact .inr (.inr ⟨trouble, hother, hwalk, hstop,
                List.forall_mem_cons.mpr ⟨hplace, hall⟩⟩)
      · refine .inr (.inr ⟨.notADirectory, by decide, ?_, ?_⟩)
        · rw [step, hplace]
          cases entry <;> simp_all [bind, Except.bind]
        · simp [blocks, hplace, hentry]

/-- Nothing stops the way of names that lead into a directory, and all of it is there. -/
theorem way_of_leads (hsound : tree.Sound) {place names : List String}
    (hplain : ∀ name ∈ names, name ≠ "." ∧ name ≠ "..") (hleads : tree.Leads place names) :
    (tree.way place names).2 = none ∧
      ∀ other ∈ (tree.way place names).1, tree.get? other = some .directory := by
  constructor
  · have hwalk := walk_dot_eq_ok_iff.mpr ⟨hleads, rfl⟩
    rcases walk_dot_cases hsound hplain place with ⟨-, hway⟩ | ⟨herror, -⟩ | ⟨_, -, herror, -⟩
    · exact hway
    · exact absurd (herror.symm.trans hwalk) (by simp)
    · exact absurd (herror.symm.trans hwalk) (by simp)
  · intro other hother
    obtain ⟨-, front, hfront, rfl⟩ := exists_prefix_of_mem_way hother
    exact ((leads_iff_of_plain hplain).mp hleads).1 front hfront

end Way

end Bindery.FileTree
