import Bindery.Proofs.FileTree.Plan
import Bindery.Proofs.Generation.AllOrNothing
import Bindery.Proofs.Generation.Jobs
import Mathlib.Data.List.Pairwise
import Mathlib.Data.List.Perm.Basic

/-!
# Jobs that do not meddle with each other

The `view` of a place is what a tree holds there. In a sound tree a job changes every view by its
`effect` and gives its `outcome` (`Job.run_eq`), and both depend on the tree only through the places
that the job looks at (`Job.Unaffected`). Jobs are `Independent` when no output is another output or
description, or above or below one. A job that is run leaves an independent one unaffected
(`Job.unaffected_run`), and the effects of independent jobs commute (`Job.effect_comm`); so every
job gives what it gives alone, in whatever order the jobs are run (`generateAll_independent`).
-/

set_option autoImplicit false
set_option relaxedAutoImplicit false

namespace Bindery

open FileTree

/-- What is at a place, and the permissions of the place that are not the usual ones. -/
abbrev View : Type := Option Entry × Option Nat

/-- The view of a place. -/
def FileTree.view (tree : FileTree) (place : List String) : View :=
  (tree.get? place, tree.modes.lookup place)

/-- Two trees have the same working directory, and hold the same with the same permissions. -/
structure FileTree.Alike (tree other : FileTree) : Prop where
  here : other.here = tree.here
  get? : ∀ place, other.get? place = tree.get? place
  modeAt : ∀ place, other.modeAt place = tree.modeAt place

theorem FileTree.modeAt_of_view {tree other : FileTree} {place : List String}
    (h : other.view place = tree.view place) : other.modeAt place = tree.modeAt place := by
  obtain ⟨hget, hmode⟩ := Prod.mk.inj h
  rw [modeAt, modeAt, hget, hmode]

theorem FileTree.Alike.of_view {tree other : FileTree} (hhere : other.here = tree.here)
    (hview : ∀ place, other.view place = tree.view place) : tree.Alike other :=
  ⟨hhere, fun place ↦ (Prod.mk.inj (hview place)).1, fun place ↦ modeAt_of_view (hview place)⟩

namespace Job

/-- The source of a job, unless it cannot be made. -/
def emission? (job : Job) (tree : FileTree) : Except Fault Emission := do
  let profile ← Profile.named job.module
  let interface ← Interface.load tree job.description
  emit profile job.header interface

/-- What a job gives on a tree, by its plan. -/
def outcome (job : Job) (tree : FileTree) : Except Fault Report :=
  match job.emission? tree with
  | .error fault => .error fault
  | .ok emission =>
    match (tree.plan job.output).2 with
    | some trouble => .error (.file job.output trouble)
    | none => .ok ⟨job.output, emission.summary, .skipped "formatting disabled"⟩

/-- What becomes of the view of a place when a job is run on a tree, by its plan. -/
def effect (job : Job) (tree : FileTree) (place : List String) (view : View) : View :=
  match job.emission? tree with
  | .error _ => view
  | .ok emission =>
    if (tree.plan job.output).2 = none ∧ place = tree.placeOf job.output then
      (some (.file (.text emission.source)), none)
    else if place ∈ (tree.plan job.output).1 then (some .directory, view.2)
    else view

/-- The paths of a job are plain. -/
def IsPlain (job : Job) : Prop := Path.IsPlain job.description ∧ Path.IsPlain job.output

instance (job : Job) : Decidable job.IsPlain := inferInstanceAs (Decidable (_ ∧ _))

/-- The output of neither job is the output or the description of the other, or is above or below
one. -/
def Independent (job other : Job) : Prop :=
  Path.Apart job.output other.output ∧ Path.Apart job.output other.description ∧
    Path.Apart other.output job.description

instance (job other : Job) : Decidable (job.Independent other) :=
  inferInstanceAs (Decidable (_ ∧ _ ∧ _))

theorem Independent.symm {job other : Job} (h : job.Independent other) : other.Independent job :=
  ⟨h.1.symm, h.2.2, h.2.1⟩

instance : Std.Symm Independent := ⟨fun _ _ ↦ Independent.symm⟩

/-- The places that a job looks at are in another tree as they are in a tree: above its output, only
what blocks a place matters. -/
structure Unaffected (job : Job) (tree other : FileTree) : Prop where
  here : other.here = tree.here
  description : other.get? (tree.placeOf job.description) = tree.get? (tree.placeOf job.description)
  output : other.get? (tree.placeOf job.output) = tree.get? (tree.placeOf job.output)
  blocks : ∀ front, front <+: (Path.names job.output).dropLast →
    other.blocks (tree.here ++ front) = tree.blocks (tree.here ++ front)

end Job

/-! ### One job -/

section Single

variable (programs : Programs) {tree : FileTree} {job : Job}

theorem lookup_modes_writeAtomic (hsound : tree.Sound) {path : String}
    (hplain : Path.IsPlain path) (content : Content) (place : List String) :
    (tree.writeAtomic path content).tree.modes.lookup place =
      if (tree.plan path).2 = none ∧ place = tree.placeOf path then none
      else tree.modes.lookup place := by
  obtain ⟨htrouble, -⟩ := writeAtomic_follows hsound hplain content
  rcases writeAtomic_cases tree path content with ⟨hnone, hwritten⟩ | ⟨trouble, hsome, hgrown⟩
  · have hkeep := lookup_filter (fun key ↦ decide (key ≠ tree.placeOf path)) place tree.modes
    simp only [hwritten.modes, hkeep, ← htrouble, hnone, true_and]
    by_cases hsame : place = tree.placeOf path <;> simp [hsame]
  · rw [hgrown.modes, ← htrouble, hsome]
    simp

/-- Without a formatter a job has the fault of its emission and leaves the tree alone, or it writes
the source. -/
theorem Job.run_cases (job : Job) (tree : FileTree) :
    let run := job.run programs none tree
    (∃ fault, job.emission? tree = .error fault ∧ run.tree = tree ∧ run.result = .error fault) ∨
    ∃ emission, job.emission? tree = .ok emission ∧
      run.tree = (tree.writeAtomic job.output (.text emission.source)).tree ∧
      run.result = match (tree.writeAtomic job.output (.text emission.source)).trouble with
        | some trouble => .error (.file job.output trouble)
        | none => .ok ⟨job.output, emission.summary, .skipped "formatting disabled"⟩ := by
  unfold Job.run Job.emission?
  cases Profile.named job.module with
  | error fault => exact .inl ⟨fault, rfl, rfl, rfl⟩
  | ok profile =>
    simp only [bind, Except.bind]
    rcases generate_cases programs profile job.header job.description job.output tree with
      ⟨fault, hload, htree, hresult⟩ | ⟨interface, hload, ⟨fault, hemit, htree, hresult⟩ |
        ⟨emission, hemit, htree, hresult⟩⟩
    · exact .inl ⟨fault, by rw [hload], htree, hresult⟩
    · exact .inl ⟨fault, by rw [hload]; exact hemit, htree, hresult⟩
    · exact .inr ⟨emission, by rw [hload]; exact hemit, htree, hresult⟩

/-- In a sound tree a job gives its outcome and changes every view by its effect. -/
theorem Job.run_eq (hsound : tree.Sound) (hplain : job.IsPlain) :
    (job.run programs none tree).result = job.outcome tree ∧
      (job.run programs none tree).tree.here = tree.here ∧
      (job.run programs none tree).tree.Sound ∧
      ∀ place, (job.run programs none tree).tree.view place =
        job.effect tree place (tree.view place) := by
  unfold Job.outcome Job.effect
  rcases job.run_cases programs tree with
    ⟨fault, hemission, htree, hresult⟩ | ⟨emission, hemission, htree, hresult⟩
  · simp only [hemission, htree, hresult]
    exact ⟨trivial, trivial, hsound, fun _ ↦ trivial⟩
  · obtain ⟨htrouble, hget⟩ := writeAtomic_follows hsound hplain.2 (.text emission.source)
    simp only [hemission, htree, hresult, htrouble]
    refine ⟨by trivial, here_writeAtomic _ _ _, hsound.writeAtomic hplain.2 _, fun place ↦ ?_⟩
    rw [view, hget, lookup_modes_writeAtomic hsound hplain.2]
    split_ifs <;> rfl

end Single

/-! ### What a job depends on -/

section Unaffected

variable {tree other : FileTree} {job : Job}

theorem Interface.load_congr {path : String} (hsound : tree.Sound) (hother : other.Sound)
    (hplain : Path.IsPlain path) (hhere : other.here = tree.here)
    (hget : other.get? (tree.placeOf path) = tree.get? (tree.placeOf path)) :
    Interface.load other path = Interface.load tree path := by
  have hfound : ∀ found, other.find path = .ok found ↔ tree.find path = .ok found :=
    fun (place, entry) ↦ by
      rw [find_eq_ok_iff_of_plain hsound hplain, find_eq_ok_iff_of_plain hother hplain,
        placeOf_congr hhere, hget]
  unfold Interface.load
  rw [exists?, exists?, readText, readText]
  cases htree : tree.find path with
  | ok found => rw [(hfound found).mpr htree]
  | error trouble =>
    cases hfind : other.find path with
    | ok found => exact absurd (htree.symm.trans ((hfound found).mp hfind)) (by simp)
    | error later => rfl

/-- A job that is not affected gives the same and does the same. -/
theorem Job.Unaffected.outcome_effect (h : job.Unaffected tree other) (hsound : tree.Sound)
    (hother : other.Sound) (hplain : job.IsPlain) :
    job.outcome other = job.outcome tree ∧ job.effect other = job.effect tree := by
  have hemission : job.emission? other = job.emission? tree := by
    rw [emission?, emission?,
      Interface.load_congr hsound hother hplain.1 h.here h.description]
  have hplan : other.plan job.output = tree.plan job.output :=
    plan_congr h.here h.blocks h.output
  constructor
  · rw [outcome, outcome, hemission, hplan]
  · funext place view
    rw [effect, effect, hemission, hplan, placeOf_congr h.here]

/-- A job does nothing at the place of a path that is apart from its output. -/
theorem Job.effect_of_apart {path : String} (hplain : job.IsPlain) (hpath : Path.IsPlain path)
    (hapart : Path.Apart job.output path) (view : View) :
    job.effect tree (tree.placeOf path) view = view := by
  unfold Job.effect
  cases job.emission? tree with
  | error fault => rfl
  | ok emission =>
    have houtput : tree.placeOf path ≠ tree.placeOf job.output := fun hsame ↦ by
      rw [placeOf_of_plain hpath, placeOf_of_plain hplain.2, List.append_cancel_left_eq] at hsame
      exact hapart.1 (hsame ▸ List.prefix_rfl)
    have hplan : tree.placeOf path ∉ (tree.plan job.output).1 := fun hmem ↦ by
      obtain ⟨-, front, hfront, hplace⟩ := exists_prefix_of_mem_plan hmem
      rw [placeOf_of_plain hpath, List.append_cancel_left_eq] at hplace
      exact hapart.2 (hplace ▸ hfront.trans (List.dropLast_prefix _))
    simp [houtput, hplan]

/-- A job does not change what blocks a place above a path that is apart from its output. -/
theorem Job.blocks_effect (hplain : job.IsPlain) {path : String}
    (hapart : Path.Apart job.output path) {front : List String}
    (hfront : front <+: (Path.names path).dropLast) (view : View)
    (hview : view.1 = tree.get? (tree.here ++ front)) :
    (job.effect tree (tree.here ++ front) view).1.any (fun entry ↦ entry ≠ .directory) =
      tree.blocks (tree.here ++ front) := by
  unfold Job.effect
  cases job.emission? tree with
  | error fault => rw [hview]; rfl
  | ok emission =>
    have houtput : tree.here ++ front ≠ tree.placeOf job.output := fun hsame ↦ by
      rw [placeOf_of_plain hplain.2, List.append_cancel_left_eq] at hsame
      exact hapart.1 (hsame ▸ hfront.trans (List.dropLast_prefix _))
    simp only [houtput, and_false, if_false]
    split_ifs with hmem
    · rw [(exists_prefix_of_mem_plan hmem).1]
      rfl
    · rw [hview]
      rfl

/-- A job that is run leaves an independent one unaffected. -/
theorem Job.unaffected_run (programs : Programs) {first : Job} (hsound : tree.Sound)
    (hfirst : first.IsPlain) (hplain : job.IsPlain) (hindependent : first.Independent job) :
    job.Unaffected tree (first.run programs none tree).tree := by
  obtain ⟨-, hhere, -, hview⟩ := run_eq programs hsound hfirst
  have hget : ∀ place, (first.run programs none tree).tree.get? place =
      (first.effect tree place (tree.view place)).1 := fun place ↦ congrArg Prod.fst (hview place)
  refine ⟨hhere, ?_, ?_, fun front hfront ↦ ?_⟩
  · rw [hget, effect_of_apart hfirst hplain.1 hindependent.2.1]
    rfl
  · rw [hget, effect_of_apart hfirst hplain.2 hindependent.1]
    rfl
  · rw [blocks, hget]
    exact blocks_effect hfirst hindependent.1 hfront _ rfl

end Unaffected

/-! ### Many jobs -/

section Many

variable (programs : Programs) {tree : FileTree}

/-- What becomes of a view when some jobs are run, if each does what it does on one tree. -/
def effects (tree : FileTree) (place : List String) (jobs : List Job) (view : View) : View :=
  jobs.foldl (fun view job ↦ job.effect tree place view) view

/-- Independent jobs give what each gives alone and change every view as each does alone. The
induction is on the jobs: the others are not affected by the first one. -/
theorem attemptAll_of_independent {jobs : List Job} (hsound : tree.Sound)
    (hplain : ∀ job ∈ jobs, job.IsPlain) (hindependent : jobs.Pairwise Job.Independent) :
    let run := attemptAll programs none jobs tree
    run.result = jobs.map (fun job ↦ (job, (job.run programs none tree).result)) ∧
      run.tree.here = tree.here ∧
      ∀ place, run.tree.view place = effects tree place jobs (tree.view place) := by
  induction jobs generalizing tree with
  | nil => exact ⟨rfl, rfl, fun _ ↦ rfl⟩
  | cons first jobs ih =>
    obtain ⟨hfirst, hplain⟩ := List.forall_mem_cons.mp hplain
    obtain ⟨hothers, hindependent⟩ := List.pairwise_cons.mp hindependent
    obtain ⟨-, hhere, hafter, hview⟩ := Job.run_eq programs hsound hfirst
    have hsame : ∀ job ∈ jobs,
        job.outcome (first.run programs none tree).tree = job.outcome tree ∧
          job.effect (first.run programs none tree).tree = job.effect tree := fun job hjob ↦ by
      have hunaffected :=
        Job.unaffected_run programs hsound hfirst (hplain job hjob) (hothers job hjob)
      exact hunaffected.outcome_effect hsound hafter (hplain job hjob)
    obtain ⟨hresult, hfinal, hviews⟩ := ih hafter hplain hindependent
    simp only [attemptAll, Job.attempt_tree, Job.attempt_result, List.map_cons]
    refine ⟨?_, hfinal.trans hhere, fun place ↦ ?_⟩
    · rw [hresult, List.cons_inj_right]
      refine List.map_congr_left fun job hjob ↦ ?_
      rw [(Job.run_eq programs hafter (hplain job hjob)).1,
        (Job.run_eq programs hsound (hplain job hjob)).1, (hsame job hjob).1]
    · rw [hviews, hview]
      exact List.foldl_ext _ _ _ fun view job hjob ↦ by rw [(hsame job hjob).2]

/-- The effects of independent jobs commute: where both do something, both make a directory. -/
theorem Job.effect_comm {job other : Job} (hjob : job.IsPlain) (hother : other.IsPlain)
    (h : job.Independent other) (place : List String) (view : View) :
    job.effect tree place (other.effect tree place view) =
      other.effect tree place (job.effect tree place view) := by
  by_cases hplace : place = tree.placeOf job.output
  · rw [hplace, effect_of_apart hother hjob.2 h.1.symm, effect_of_apart hother hjob.2 h.1.symm]
  by_cases hplace' : place = tree.placeOf other.output
  · rw [hplace', effect_of_apart hjob hother.2 h.1, effect_of_apart hjob hother.2 h.1]
  unfold effect
  cases job.emission? tree with
  | error fault => rfl
  | ok emission =>
    cases other.emission? tree with
    | error fault => rfl
    | ok emission' =>
      simp only [hplace, hplace', and_false, if_false]
      split_ifs <;> rfl

theorem effects_perm {jobs permuted : List Job} (hperm : permuted.Perm jobs)
    (hplain : ∀ job ∈ jobs, job.IsPlain) (hindependent : jobs.Pairwise Job.Independent)
    (place : List String) (view : View) :
    effects tree place permuted view = effects tree place jobs view := by
  refine (hperm.symm.foldl_eq' (fun job hjob other hother view ↦ ?_) view).symm
  rcases eq_or_ne job other with rfl | hne
  · rfl
  · exact (Job.effect_comm (hplain job hjob) (hplain other hother)
      (hindependent.forall hjob hother hne) place view).symm

/-- At the place of its output, a job among independent ones does what it does alone. -/
theorem effects_output {jobs : List Job} (hplain : ∀ job ∈ jobs, job.IsPlain)
    (hindependent : jobs.Pairwise Job.Independent) {job : Job} (hjob : job ∈ jobs) (view : View) :
    effects tree (tree.placeOf job.output) jobs view =
      job.effect tree (tree.placeOf job.output) view := by
  have hidle : ∀ others : List Job, (∀ other ∈ others, other.IsPlain ∧ other.Independent job) →
      ∀ view, effects tree (tree.placeOf job.output) others view = view := fun others h view ↦
    (List.foldl_ext _ (fun view _ ↦ view) view fun view other hother ↦
      Job.effect_of_apart (h other hother).1 (hplain job hjob).2 (h other hother).2.1 view).trans
      (List.foldl_fixed others)
  obtain ⟨before, after, rfl⟩ := List.append_of_mem hjob
  obtain ⟨-, hrest, hcross⟩ := List.pairwise_append.mp hindependent
  have hbefore := hidle before (fun other hother ↦
    ⟨hplain other (List.mem_append_left _ hother), hcross other hother job List.mem_cons_self⟩) view
  have hafter := hidle after fun other hother ↦
    ⟨hplain other (by simp [hother]), (List.rel_of_pairwise_cons hrest hother).symm⟩
  unfold effects at hbefore hafter ⊢
  rw [List.foldl_append, List.foldl_cons, hbefore, hafter]

end Many

/-! ### Whole runs -/

theorem Config.unknown?_perm {config permuted : Config} (hperm : permuted.jobs.Perm config.jobs)
    (modules : List String) : permuted.unknown? modules = config.unknown? modules := by
  unfold Config.unknown?
  congr 1
  funext module
  rw [Bool.eq_iff_iff]
  simp [hperm.mem_iff]

theorem Config.select_perm {config permuted : Config} (hperm : permuted.jobs.Perm config.jobs)
    (modules : List String) : (permuted.select modules).Perm (config.select modules) :=
  hperm.filter _

/-- Independent jobs can be put in any order: each gives what it gives when it is run alone on the
tree, its output holds what it holds then, and the trees that are left are alike. -/
theorem generateAll_independent (programs : Programs) {config permuted : Config}
    (modules : List String) {tree : FileTree} (hperm : permuted.jobs.Perm config.jobs)
    (hsound : tree.Sound) (hplain : ∀ job ∈ config.jobs, job.IsPlain)
    (hindependent : config.jobs.Pairwise Job.Independent) :
    match generateAll programs config modules none tree,
        generateAll programs permuted modules none tree with
    | .error name, .error other => other = name
    | .ok run, .ok other =>
        run.result = (config.select modules).map
          (fun job ↦ (job, (job.run programs none tree).result)) ∧
        other.result = (permuted.select modules).map
          (fun job ↦ (job, (job.run programs none tree).result)) ∧
        other.result.Perm run.result ∧ run.tree.Alike other.tree ∧
        ∀ job ∈ config.select modules,
          run.tree.get? (tree.placeOf job.output) =
              (job.run programs none tree).tree.get? (tree.placeOf job.output) ∧
            run.tree.modeAt (tree.placeOf job.output) =
              (job.run programs none tree).tree.modeAt (tree.placeOf job.output)
    | _, _ => False := by
  unfold generateAll
  rw [Config.unknown?_perm hperm]
  cases config.unknown? modules with
  | some name => rfl
  | none =>
    have hselect := Config.select_perm hperm modules
    have hplain : ∀ job ∈ config.select modules, job.IsPlain := fun job hjob ↦
      hplain job (List.mem_of_mem_filter hjob)
    have hindependent : (config.select modules).Pairwise Job.Independent :=
      hindependent.filter _
    obtain ⟨hresult, hhere, hview⟩ :=
      attemptAll_of_independent programs hsound hplain hindependent
    obtain ⟨hresult', hhere', hview'⟩ :=
      attemptAll_of_independent programs hsound
        (fun job hjob ↦ hplain job (hselect.mem_iff.mp hjob))
        ((hselect.pairwise_iff Job.Independent.symm).mpr hindependent)
    refine ⟨hresult, hresult', ?_, .of_view (hhere'.trans hhere.symm) fun place ↦ ?_,
      fun job hjob ↦ ?_⟩
    · rw [hresult, hresult']
      exact hselect.map _
    · rw [hview, hview', effects_perm hselect hplain hindependent]
    · have hsame := (hview (tree.placeOf job.output)).trans
        (effects_output hplain hindependent hjob _)
      rw [← (Job.run_eq programs hsound (hplain job hjob)).2.2.2] at hsame
      exact ⟨congrArg Prod.fst hsame, modeAt_of_view hsame⟩

/-- Two jobs that share their description, and the directory above their outputs. -/
def sharedConfig : Config :=
  ⟨Config.defaultFormatter,
    [⟨"raylib", "api.json", "out/raylib.v", none⟩,
     ⟨"raymath", "api.json", "out/math/raymath.v", none⟩]⟩

/-- The same jobs in the other order. -/
def sharedConfigReversed : Config := ⟨Config.defaultFormatter, sharedConfig.jobs.reverse⟩

/-- A tree with the description of an empty interface. -/
def sharedTree : FileTree :=
  ⟨["work"], [(["work"], .directory), (["work", "api.json"], .file (.text "\x7b\x7d"))], []⟩

theorem generateAll_sharedConfig :
    ∃ run other,
      generateAll (fun _ ↦ none) sharedConfig [] none sharedTree = .ok run ∧
      generateAll (fun _ ↦ none) sharedConfigReversed [] none sharedTree = .ok other ∧
      other.result.Perm run.result ∧ run.tree.Alike other.tree := by
  have hsame := @generateAll_independent (fun _ ↦ none) sharedConfig sharedConfigReversed []
    sharedTree (List.reverse_perm _) (by decide +kernel) (by decide +kernel) (by decide +kernel)
  exact ⟨_, _, rfl, rfl, hsame.2.2.1, hsame.2.2.2.1⟩

end Bindery
