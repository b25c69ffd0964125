import Bindery.CommandLine
import Mathlib.Data.List.Basic

/-!
# Runs of jobs

`treeAfter` is the tree that some jobs leave, run one after the other. A run of jobs `Reports` on
each of them in order, and the report on a job is what the job gives on the tree that those before
it left, whether they failed or not (`attemptAll_reports`). The jobs that are run are those of the
modules named, in the order of the configuration, unless a name has no job
(`generateAll_reports_each_job`).
-/

set_option autoImplicit false
set_option relaxedAutoImplicit false

namespace Bindery

section Attempts

variable (programs : Programs) (formatter : Option Formatter)

/-- The tree that some jobs leave, run in order. -/
def treeAfter (jobs : List Job) (tree : FileTree) : FileTree :=
  jobs.foldl (fun before job ↦ (job.run programs formatter before).tree) tree

theorem treeAfter_cons (job : Job) (jobs : List Job) (tree : FileTree) :
    treeAfter programs formatter (job :: jobs) tree =
      treeAfter programs formatter jobs (job.run programs formatter tree).tree :=
  rfl

theorem Job.attempt_tree (job : Job) (tree : FileTree) :
    (job.attempt programs formatter tree).tree = (job.run programs formatter tree).tree := by
  unfold Job.attempt
  cases h : (job.run programs formatter tree).result <;> simp only [h]

theorem Job.attempt_result (job : Job) (tree : FileTree) :
    (job.attempt programs formatter tree).result = (job.run programs formatter tree).result := by
  unfold Job.attempt
  cases h : (job.run programs formatter tree).result <;> simp only [h]

/-- A job of a module that is not built in fails, and leaves the files alone. -/
theorem Job.run_of_find?_eq_none {job : Job} (h : Profile.find? job.module = none)
    (tree : FileTree) :
    job.run programs formatter tree = ⟨[], tree, .error (.unknownModule job.module)⟩ := by
  rw [Job.run, Profile.named, h]

/-- A run reports on each of the jobs, once and in order, what running it gives on the tree that the
jobs before it left, and leaves the tree that all of them left. -/
structure Reports (jobs : List Job) (tree : FileTree)
    (run : Run (List (Job × Except Fault Report))) : Prop where
  order : run.result.map Prod.fst = jobs
  report : ∀ (i : Nat) (job : Job), jobs[i]? = some job →
    run.result[i]? = some (job,
      (job.run programs formatter (treeAfter programs formatter (jobs.take i) tree)).result)
  final : run.tree = treeAfter programs formatter jobs tree

/-- The induction is on the jobs: the first one runs on the tree itself, and the reports on the
others are those of a run that starts where it ended. -/
theorem attemptAll_reports (jobs : List Job) (tree : FileTree) :
    Reports programs formatter jobs tree (attemptAll programs formatter jobs tree) := by
  induction jobs generalizing tree with
  | nil => exact ⟨rfl, fun _ _ h ↦ (nomatch h), rfl⟩
  | cons first jobs ih =>
    have hothers := ih (first.attempt programs formatter tree).tree
    rw [Job.attempt_tree] at hothers
    refine ⟨?_, fun i job hjob ↦ ?_, ?_⟩
    · simp only [attemptAll, List.map_cons, Job.attempt_tree, hothers.order]
    · cases i with
      | zero =>
        obtain rfl : first = job := Option.some.inj hjob
        simp only [attemptAll, Job.attempt_result, List.getElem?_cons_zero, List.take_zero]
        rfl
      | succ i =>
        simp only [attemptAll, Job.attempt_tree, List.getElem?_cons_succ, List.take_succ_cons,
          treeAfter_cons]
        exact hothers.report i job hjob
    · simp only [attemptAll, Job.attempt_tree, treeAfter_cons]
      exact hothers.final

end Attempts

/-! ### The jobs of a configuration -/

theorem Config.select_eq (config : Config) (modules : List String) :
    config.select modules =
      config.jobs.filter fun job ↦ modules = [] ∨ job.module ∈ modules := by
  unfold Config.select
  congr 1
  funext job
  cases modules <;> simp

/-- The name that is reported is the first one without a job. -/
theorem Config.unknown?_eq_some {config : Config} {modules : List String} {name : String}
    (h : config.unknown? modules = some name) :
    ∃ before after, modules = before ++ name :: after ∧
      (∀ job ∈ config.jobs, job.module ≠ name) ∧
      ∀ earlier ∈ before, ∃ job ∈ config.jobs, job.module = earlier := by
  obtain ⟨hname, before, after, hmodules, hbefore⟩ := List.find?_eq_some_iff_append.mp h
  exact ⟨before, after, hmodules, by simpa using hname, by simpa using hbefore⟩

theorem Config.unknown?_eq_none {config : Config} {modules : List String}
    (h : config.unknown? modules = none) :
    ∀ name ∈ modules, ∃ job ∈ config.jobs, job.module = name := by
  simpa [Config.unknown?] using h

/-! ### The outcome of the command -/

namespace CommandLine

theorem failedCount_eq_zero_iff {results : List (Job × Except Fault Report)} :
    failedCount results = 0 ↔ ∀ result ∈ results, result.2.isOk := by
  simp [failedCount, List.countP_eq_zero]

/-- A command that needs the configuration ends as it does under the configuration that is found. -/
theorem withConfig_of_resolve {explicit : Option String} {tree : FileTree} {config : Config}
    (h : (Config.resolve tree explicit (FileTree.absolutePath tree.here)).2 = .ok config)
    (run : Config → Outcome) :
    (withConfig explicit tree run).tree = (run config).tree ∧
      (withConfig explicit tree run).failure = (run config).failure := by
  unfold withConfig
  simp only [h]
  exact ⟨trivial, trivial⟩

/-- The command ends as its jobs do: with the exit code 0 exactly when all of them did. -/
theorem generateModules_cases (programs : Programs) (config : Config) (modules : List String)
    (noFormat : Bool) (tree : FileTree) :
    let outcome := generateModules programs config modules noFormat tree
    match generateAll programs config modules (config.activeFormatter? noFormat) tree with
    | .error name => outcome.tree = tree ∧ outcome.code = 1 ∧ outcome.failure = some (.noJob name)
    | .ok run => outcome.tree = run.tree ∧
        (outcome.code = 0 ↔ ∀ report ∈ run.result, report.2.isOk) ∧
        (outcome.code ≠ 0 → outcome.failure =
          some (.someFailed (run.result.countP fun report ↦ !report.2.isOk)
            run.result.length)) := by
  intro outcome
  cases hrun : generateAll programs config modules (config.activeFormatter? noFormat) tree with
  | error name =>
    simp only [outcome, generateModules, hrun, Outcome.code]
    exact ⟨trivial, rfl, trivial⟩
  | ok run =>
    simp only [outcome, generateModules, hrun, Outcome.code, ← failedCount_eq_zero_iff]
    by_cases hcount : failedCount run.result = 0
    · simp [hcount]
    · simp only [hcount, if_false, Option.isSome_some, if_true]
      exact ⟨trivial, by decide, fun _ ↦ rfl⟩

/-- Every job of the modules named is run, in the order of the configuration and on the tree that
the jobs before it left, and its fault keeps no other from running; a name without a job is reported
before anything is run. The command ends with the exit code 0 exactly when no job has a fault, and
otherwise says how many had one. -/
theorem generateAll_reports_each_job (programs : Programs) (config : Config)
    (modules : List String) (tree : FileTree) :
    (∀ formatter, match generateAll programs config modules formatter tree with
      | .error name => ∃ before after, modules = before ++ name :: after ∧
          (∀ job ∈ config.jobs, job.module ≠ name) ∧
          ∀ earlier ∈ before, ∃ job ∈ config.jobs, job.module = earlier
      | .ok run => (∀ name ∈ modules, ∃ job ∈ config.jobs, job.module = name) ∧
          Reports programs formatter
            (config.jobs.filter fun job ↦ modules = [] ∨ job.module ∈ modules) tree run) ∧
    (∀ formatter, ∀ job ∈ config.jobs, Profile.find? job.module = none → ∀ before,
      (job.run programs formatter before).result = .error (.unknownModule job.module) ∧
        (job.run programs formatter before).tree = before) ∧
    ∀ verbose explicit noFormat,
      (Config.resolve tree explicit (FileTree.absolutePath tree.here)).2 = .ok config →
      let outcome := run programs ⟨verbose, explicit, .generate modules noFormat⟩ tree
      match generateAll programs config modules (config.activeFormatter? noFormat) tree with
      | .error name =>
          outcome.tree = tree ∧ outcome.code = 1 ∧ outcome.failure = some (.noJob name)
      | .ok run => outcome.tree = run.tree ∧
          (outcome.code = 0 ↔ ∀ report ∈ run.result, report.2.isOk) ∧
          (outcome.code ≠ 0 → outcome.failure =
            some (.someFailed (run.result.countP fun report ↦ !report.2.isOk)
              run.result.length)) := by
  refine ⟨fun formatter ↦ ?_, fun formatter job _ hfind before ↦ ?_,
    fun verbose explicit noFormat hconfig ↦ ?_⟩
  · unfold generateAll
    cases hunknown : config.unknown? modules with
    | some name => exact Config.unknown?_eq_some hunknown
    | none =>
      rw [← Config.select_eq]
      exact ⟨Config.unknown?_eq_none hunknown, attemptAll_reports programs formatter _ tree⟩
  · rw [Job.run_of_find?_eq_none programs formatter hfind]
    exact ⟨rfl, rfl⟩
  · obtain ⟨htree, hfailure⟩ := withConfig_of_resolve hconfig
      fun config ↦ generateModules programs config modules noFormat tree
    have hcases := generateModules_cases programs config modules noFormat tree
    simp only [Outcome.code] at hcases ⊢
    simp only [run, htree, hfailure]
    exact hcases

/-- A tree with an empty working directory. -/
def emptyDirectory : FileTree := ⟨["work"], [(["work"], .directory)], []⟩

theorem resolve_emptyDirectory :
    (Config.resolve emptyDirectory none (FileTree.absolutePath emptyDirectory.here)).2 =
      .ok .standard := by
  have hnone : emptyDirectory.exists?
      (Path.join (FileTree.absolutePath emptyDirectory.here) Config.fileName) = false := by
    decide +kernel
  rw [Config.resolve, hnone]
  rfl

/-- A job of a module that is not built in. -/
def strangeJob : Job := ⟨"rlgl", "rlgl.json", "rlgl.v", none⟩

/-- Without descriptions both of two jobs fail, the second after the first; and a job of a module
that is not built in fails before it looks for one. -/
theorem generate_emptyDirectory :
    let outcome :=
      run (fun _ ↦ none) ⟨false, none, .generate ["raylib", "raygui"] true⟩ emptyDirectory
    outcome.code ≠ 0 ∧ outcome.failure = some (.someFailed 2 2) ∧
      (strangeJob.run (fun _ ↦ none) none emptyDirectory).result =
        .error (.unknownModule "rlgl") := by
  have hcases := (generateAll_reports_each_job (fun _ ↦ none) .standard ["raylib", "raygui"]
    emptyDirectory).2.2 false none true resolve_emptyDirectory
  have hstrange := (generateAll_reports_each_job (fun _ ↦ none)
    ⟨Config.defaultFormatter, [strangeJob]⟩ [] emptyDirectory).2.1 none strangeJob
    List.mem_cons_self (by decide) emptyDirectory
  have hrun : ∃ run, generateAll (fun _ ↦ none) .standard ["raylib", "raygui"]
      (Config.standard.activeFormatter? true) emptyDirectory = .ok run ∧
      run.result.map (fun report ↦ report.2.isOk) = [false, false] :=
    ⟨_, rfl, by decide +kernel⟩
  obtain ⟨run, hrun, hresult⟩ := hrun
  rw [hrun] at hcases
  obtain ⟨-, hcode, hfailure⟩ := hcases
  have hlength : run.result.length = 2 := by simpa using congrArg List.length hresult
  have hcount : (run.result.countP fun report ↦ !report.2.isOk) = 2 := by
    simpa [List.countP_map, Function.comp_def] using congrArg (List.countP (!·)) hresult
  have hfailed : ¬∀ report ∈ run.result, report.2.isOk := fun hall ↦ by
    rw [List.countP_eq_zero.mpr (by simpa using hall)] at hcount
    exact absurd hcount (by decide)
  have hnonzero := (not_congr hcode).mpr hfailed
  refine ⟨hnonzero, ?_, hstrange.1⟩
  rw [hfailure hnonzero, hcount, hlength]

end CommandLine

end Bindery
