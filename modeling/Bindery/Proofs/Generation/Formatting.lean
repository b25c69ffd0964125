import Bindery.Proofs.FileTree.Contents
import Bindery.Proofs.Generation.Independence

/-!
# A formatter has no say in what succeeds

A run with a formatter is a run without one, after which a file that was written is formatted
(`Job.run_eq_thenFormat`). What a formatter does is known from what its program answers when it is
called (`Formatter.answer?`), and it is `Modest` when the program changes at most the contents of
the file it is given. `Steps` of a run say for each job what it started from, what its write left,
which calls of the formatter followed and what they left.

Where no job has the output of another for its output or description, a modest formatter leaves
every job its fault or its counts, and every file its content but for the outputs
(`generateAll_formatter`). The formatter is called once for each file that was written, if it is
enabled and found; and an output that it does not touch holds the source of its module.
-/

set_option autoImplicit false
set_option relaxedAutoImplicit false

namespace Bindery

open FileTree

/-! ### What a formatter does -/

namespace Formatter

/-- What the program of a formatter answers when it is called on a file: the path that it is found
at, and how it ends, with the files it leaves, or why it cannot be started. -/
def answer? (programs : Programs) (formatter : Formatter) (path : String) (tree : FileTree) :
    Option (String × Except String (Exit × FileTree)) :=
  (programs.find? tree formatter.program).map fun (place, program) ↦
    (place, program.start place (formatter.args ++ [path]) tree)

/-- The program of a formatter changes at most the contents of the file it is given. -/
def Modest (programs : Programs) (formatter : Formatter) : Prop :=
  ∀ (tree after : FileTree) (path place : String) (content : Content) (exit : Exit),
    tree.find path = .ok (tree.placeOf path, .file content) →
      formatter.answer? programs path tree = some (place, .ok (exit, after)) →
        SameBut {tree.placeOf path} tree after

/-- A call of a program: by its path, with some arguments, on a tree. -/
structure Call where
  program : String
  args : List String
  tree : FileTree

end Formatter

/-- How a formatter deals with a file that has been written: the calls of its program, the tree in
the end, and what is reported. Only a program that ends has had a chance to change the tree. -/
inductive Formats (programs : Programs) (formatter : Formatter) (path : String)
    (written : FileTree) : List Formatter.Call → FileTree → Formatting → Prop
  | disabled (henabled : formatter.enabled = false) :
      Formats programs formatter path written [] written (.skipped "formatting disabled")
  | missing (henabled : formatter.enabled = true)
      (hanswer : formatter.answer? programs path written = none) :
      Formats programs formatter path written [] written
        (.skipped ("`" ++ formatter.program ++ "` not found in PATH"))
  | unstarted {place reason : String} (henabled : formatter.enabled = true)
      (hanswer : formatter.answer? programs path written = some (place, .error reason)) :
      Formats programs formatter path written [⟨place, formatter.args ++ [path], written⟩] written
        (.failed ("failed to run `" ++ place ++ "`: " ++ reason))
  | ended {place : String} {exit : Exit} {after : FileTree} (henabled : formatter.enabled = true)
      (hanswer : formatter.answer? programs path written = some (place, .ok (exit, after))) :
      Formats programs formatter path written [⟨place, formatter.args ++ [path], written⟩] after
        (if exit.code = some 0 then .formatted
          else .failed (failureReport place (formatter.args ++ [path]) exit))

@[simp] theorem format_none (programs : Programs) (path : String) (tree : FileTree) :
    format programs none path tree = ⟨[], tree, .skipped "formatting disabled"⟩ :=
  rfl

section Format

variable {programs : Programs} {formatter : Formatter} {path : String} {tree : FileTree}

/-- A disabled formatter is not asked, and any other only for its answer. -/
theorem format_eq (programs : Programs) (formatter : Formatter) (path : String)
    (tree : FileTree) :
    format programs (some formatter) path tree =
      if formatter.enabled = false then ⟨[], tree, .skipped "formatting disabled"⟩
      else match formatter.answer? programs path tree with
        | none =>
          ⟨[⟨.warning, "formatter `" ++ formatter.program ++ "` not found in PATH, leaving " ++
            path ++ " unformatted"⟩], tree,
            .skipped ("`" ++ formatter.program ++ "` not found in PATH")⟩
        | some (place, .error reason) =>
          Formatter.failure path ("failed to run `" ++ place ++ "`: " ++ reason) tree
        | some (place, .ok (exit, after)) =>
          if exit.code = some 0 then ⟨[⟨.debug, "formatted " ++ path⟩], after, .formatted⟩
          else Formatter.failure path
            (failureReport place (formatter.args ++ [path]) exit) after := by
  unfold format Formatter.answer? Formatter.launch
  rw [Option.filter_some]
  cases henabled : formatter.enabled with
  | false => rfl
  | true =>
    simp only [if_true, Bool.true_eq_false, if_false]
    cases programs.find? tree formatter.program with
    | none => rfl
    | some found =>
      simp only [Option.map_some]
      cases found.2.start found.1 (formatter.args ++ [path]) tree <;> rfl

theorem exists_formats (programs : Programs) (formatter : Formatter) (path : String)
    (tree : FileTree) :
    let run := format programs (some formatter) path tree
    ∃ calls, Formats programs formatter path tree calls run.tree run.result := by
  rw [format_eq]
  cases henabled : formatter.enabled with
  | false => exact ⟨[], .disabled henabled⟩
  | true =>
    rw [if_neg (by simp)]
    cases hanswer : formatter.answer? programs path tree with
    | none => exact ⟨[], .missing henabled hanswer⟩
    | some answer =>
      obtain ⟨place, reason | ⟨exit, after⟩⟩ := answer
      · exact ⟨_, .unstarted henabled hanswer⟩
      · have hended := Formats.ended henabled hanswer
        by_cases hcode : exit.code = some 0
        · simp only [if_pos hcode] at hended ⊢
          exact ⟨_, hended⟩
        · simp only [if_neg hcode] at hended ⊢
          exact ⟨_, hended⟩

theorem format_congr {others : Programs} (h : formatter.enabled = true →
      formatter.answer? others path tree = formatter.answer? programs path tree) :
    format others (some formatter) path tree = format programs (some formatter) path tree := by
  rw [format_eq, format_eq]
  cases henabled : formatter.enabled with
  | false => rfl
  | true => rw [h henabled]

end Format

/-! ### One job -/

/-- A run without a formatter, after which a file that was written is formatted. -/
def Run.thenFormat (programs : Programs) (formatter : Option Formatter) (path : String)
    (run : Run (Except Fault Report)) : Run (Except Fault Report) :=
  match run.result with
  | .error _ => run
  | .ok report =>
    let formatted := format programs formatter path run.tree
    ⟨run.log ++ formatted.log, formatted.tree, .ok { report with format := formatted.result }⟩

section Single

variable (programs : Programs) (formatter : Option Formatter) (job : Job) (tree : FileTree)

theorem Job.run_eq_thenFormat :
    job.run programs formatter tree =
      (job.run programs none tree).thenFormat programs formatter job.output := by
  unfold Job.run generate Run.thenFormat
  cases Profile.named job.module with
  | error fault => rfl
  | ok profile =>
    simp only
    cases Interface.load tree job.description with
    | error fault => rfl
    | ok interface =>
      simp only
      cases emit profile job.header interface with
      | error fault => rfl
      | ok emission =>
        simp only
        cases (tree.writeAtomic job.output (.text emission.source)).trouble with
        | some trouble => rfl
        | none => simp

variable {job tree}

/-- After a fault there is nothing to format. -/
theorem Job.run_of_error {fault : Fault}
    (hresult : (job.run programs none tree).result = .error fault) :
    job.run programs formatter tree = job.run programs none tree := by
  rw [Job.run_eq_thenFormat programs formatter, Run.thenFormat, hresult]

theorem Job.run_of_ok {report : Report}
    (hresult : (job.run programs none tree).result = .ok report) :
    let formatted := format programs formatter job.output (job.run programs none tree).tree
    let run := job.run programs formatter tree
    run.tree = formatted.tree ∧ run.result = .ok { report with format := formatted.result } := by
  rw [Job.run_eq_thenFormat programs formatter, Run.thenFormat, hresult]
  exact ⟨rfl, rfl⟩

/-- A job that gives a report has written the source that it emits. -/
theorem Job.written_of_run_eq_ok {report : Report}
    (hresult : (job.run programs none tree).result = .ok report) :
    ∃ emission, job.emission? tree = .ok emission ∧ report.summary = emission.summary ∧
      (job.run programs none tree).tree.find job.output =
        .ok (tree.placeOf job.output, .file (.text emission.source)) := by
  rcases job.run_cases programs tree with
    ⟨fault, -, -, hfault⟩ | ⟨emission, hemission, htree, hwritten⟩
  · exact absurd (hfault.symm.trans hresult) (by simp)
  · rw [hwritten] at hresult
    rcases writeAtomic_cases tree job.output (.text emission.source) with
      ⟨htrouble, hchange⟩ | ⟨trouble, htrouble, -⟩
    · rw [htrouble] at hresult
      obtain rfl := Except.ok.inj hresult
      exact ⟨emission, hemission, rfl, htree ▸ hchange.found⟩
    · rw [htrouble] at hresult
      exact nomatch hresult

theorem Job.here_run (job : Job) (tree : FileTree) :
    (job.run programs none tree).tree.here = tree.here := by
  rcases job.run_cases programs tree with ⟨_, -, htree, -⟩ | ⟨_, -, htree, -⟩
  · rw [htree]
  · rw [htree, here_writeAtomic]

/-- A job without a formatter keeps every place but that of its output. -/
theorem Job.keeps_run {place : List String} (hplace : place ≠ tree.placeOf job.output) :
    Keeps place tree (job.run programs none tree).tree := by
  rcases job.run_cases programs tree with ⟨_, -, htree, -⟩ | ⟨_, -, htree, -⟩
  · rw [htree]
    exact .refl place tree
  · rw [htree]
    exact .writeAtomic _ hplace

/-- A job ends in the same way, whatever files hold that are not its description. -/
theorem Job.run_congr {other : FileTree} {places : Set (List String)}
    (h : SameBut places tree other) (hplace : tree.placeOf job.description ∉ places) :
    job.emission? other = job.emission? tree ∧
      (job.run programs none other).result = (job.run programs none tree).result ∧
      SameBut places (job.run programs none tree).tree (job.run programs none other).tree := by
  have hload : Interface.load other job.description = Interface.load tree job.description := by
    rw [Interface.load, Interface.load, exists?, exists?, readText, readText,
      h.find_of_notMem hplace]
  have hsame : job.emission? other = job.emission? tree := by
    rw [Job.emission?, Job.emission?, hload]
  refine ⟨hsame, ?_⟩
  rcases job.run_cases programs tree with
    ⟨fault, hfault, htree, hresult⟩ | ⟨emission, hemission, htree, hresult⟩
  · rcases job.run_cases programs other with
      ⟨fault', hfault', htree', hresult'⟩ | ⟨emission, hemission, -, -⟩
    · obtain rfl := Except.error.inj (hfault'.symm.trans (hsame.trans hfault))
      exact ⟨hresult'.trans hresult.symm, by rwa [htree, htree']⟩
    · exact absurd (hemission.symm.trans (hsame.trans hfault)) (by simp)
  · rcases job.run_cases programs other with
      ⟨fault, hfault, -, -⟩ | ⟨emission', hemission', htree', hresult'⟩
    · exact absurd (hfault.symm.trans (hsame.trans hemission)) (by simp)
    · obtain rfl := Except.ok.inj (hemission'.symm.trans (hsame.trans hemission))
      obtain ⟨hwritten, htrouble⟩ := h.writeAtomic job.output (.text emission'.source)
      rw [htrouble] at hresult'
      exact ⟨hresult'.trans hresult.symm, by rwa [htree, htree']⟩

/-- Without a formatter no program matters. -/
theorem Job.run_none_congr (others : Programs) (job : Job) (tree : FileTree) :
    job.run others none tree = job.run programs none tree := by
  unfold Job.run generate
  simp only [format_none]

end Single

section Formatted

variable {programs : Programs} {formatter : Formatter}

/-- A modest formatter changes at most what the file holds. -/
theorem Formats.sameBut {path : String} {written after : FileTree} {calls : List Formatter.Call}
    {outcome : Formatting} {place : List String} {content : Content}
    (h : Formats programs formatter path written calls after outcome)
    (hmodest : formatter.Modest programs)
    (hfound : written.find path = .ok (place, .file content)) :
    SameBut {place} written after := by
  obtain rfl := place_of_find hfound
  cases h with
  | disabled _ => exact .refl _ _
  | missing _ _ => exact .refl _ _
  | unstarted _ _ => exact .refl _ _
  | ended _ hanswer => exact hmodest written _ path _ content _ hfound hanswer

/-- What comes of a job: the tree it starts from, the one that its write leaves, the calls of the
formatter that follow, the tree they leave, and the result. -/
structure Job.Step where
  job : Job
  before : FileTree
  written : FileTree
  calls : List Formatter.Call
  after : FileTree
  result : Except Fault Report

/-- A step does what its job does without a formatter, and then formats the output if it has been
written. -/
inductive Job.Step.Performed (programs : Programs) (formatter : Formatter) : Job.Step → Prop
  | failed {job : Job} {before : FileTree} {fault : Fault}
      (hresult : (job.run programs none before).result = .error fault) :
      Performed programs formatter
        ⟨job, before, (job.run programs none before).tree, [],
          (job.run programs none before).tree, .error fault⟩
  | written {job : Job} {before after : FileTree} {report : Report}
      {calls : List Formatter.Call} {outcome : Formatting}
      (hresult : (job.run programs none before).result = .ok report)
      (hformats : Formats programs formatter job.output (job.run programs none before).tree calls
        after outcome) :
      Performed programs formatter
        ⟨job, before, (job.run programs none before).tree, calls, after,
          .ok { report with format := outcome }⟩

theorem Job.exists_performed (programs : Programs) (formatter : Formatter) (job : Job)
    (before : FileTree) :
    let run := job.run programs (some formatter) before
    ∃ calls, Job.Step.Performed programs formatter
      ⟨job, before, (job.run programs none before).tree, calls, run.tree, run.result⟩ := by
  cases hresult : (job.run programs none before).result with
  | error fault =>
    simp only [Job.run_of_error programs _ hresult, hresult]
    exact ⟨[], .failed hresult⟩
  | ok report =>
    obtain ⟨htree, hformatted⟩ := Job.run_of_ok programs (some formatter) hresult
    obtain ⟨calls, hformats⟩ :=
      exists_formats programs formatter job.output (job.run programs none before).tree
    simp only [htree, hformatted]
    exact ⟨calls, .written hresult hformats⟩

/-- What a report says of a job, whatever the formatter has done. -/
def verdict (report : Job × Except Fault Report) : Job × Except Fault (String × Summary) :=
  (report.1, report.2.map fun report ↦ (report.output, report.summary))

/-- A job with a formatter and one without end in the same way on trees that differ in files other
than the description, and leave trees that differ in these files and the output. -/
theorem Job.run_lockstep (hmodest : formatter.Modest programs) {job : Job}
    {tree other : FileTree} {places : Set (List String)} (h : SameBut places tree other)
    (hplace : tree.placeOf job.description ∉ places) :
    let plain := job.run programs none tree
    let run := job.run programs (some formatter) other
    verdict (job, run.result) = verdict (job, plain.result) ∧
      SameBut (insert (tree.placeOf job.output) places) plain.tree run.tree := by
  intro plain run
  obtain ⟨-, hresult, hsame⟩ := Job.run_congr programs h hplace
  have hsame := hsame.mono (Set.subset_insert (tree.placeOf job.output) places)
  cases hplain : plain.result with
  | error fault =>
    have hother := hresult.trans hplain
    simp only [run, Job.run_of_error programs _ hother, hother]
    exact ⟨trivial, hsame⟩
  | ok report =>
    have hother := hresult.trans hplain
    obtain ⟨htree, hformatted⟩ := Job.run_of_ok programs (some formatter) hother
    obtain ⟨emission, -, -, hfound⟩ := Job.written_of_run_eq_ok programs hother
    obtain ⟨calls, hformats⟩ :=
      exists_formats programs formatter job.output (job.run programs none other).tree
    have hafter := hformats.sameBut hmodest hfound
    rw [placeOf_congr h.here, ← htree] at hafter
    simp only [run, hformatted]
    exact ⟨rfl, hsame.trans (hafter.mono (by simp))⟩

/-- A modest formatter makes a difference to what the output holds, and to nothing else. -/
theorem Job.sameBut_run (hmodest : formatter.Modest programs) (job : Job) (tree : FileTree) :
    SameBut {tree.placeOf job.output} (job.run programs none tree).tree
      (job.run programs (some formatter) tree).tree := by
  simpa using (job.run_lockstep hmodest (.refl ∅ tree) (Set.notMem_empty _)).2

/-- A job with a modest formatter keeps every place but that of its output. -/
theorem Job.keeps_run_formatted (hmodest : formatter.Modest programs) {job : Job}
    {tree : FileTree} {place : List String} (hplace : place ≠ tree.placeOf job.output) :
    Keeps place tree (job.run programs (some formatter) tree).tree :=
  (Job.keeps_run programs hplace).trans (.of_sameBut (job.sameBut_run hmodest tree) hplace)

/-- Programs that answer alike if the output has been written make the same run. -/
theorem Job.run_congr_of_answer {others : Programs} {job : Job} {tree : FileTree}
    (hanswer : ∀ report, (job.run programs (some formatter) tree).result = .ok report →
      formatter.enabled = true →
        formatter.answer? others job.output (job.run programs none tree).tree =
          formatter.answer? programs job.output (job.run programs none tree).tree) :
    job.run others (some formatter) tree = job.run programs (some formatter) tree := by
  cases hresult : (job.run programs none tree).result with
  | error fault =>
    have hother := (congrArg Run.result (Job.run_none_congr programs others job tree)).trans hresult
    rw [Job.run_of_error programs _ hresult, Job.run_of_error others _ hother,
      Job.run_none_congr programs others]
  | ok report =>
    have hsame := format_congr (hanswer _ (Job.run_of_ok programs _ hresult).2)
    rw [Job.run_eq_thenFormat others, Job.run_eq_thenFormat programs (some formatter),
      Job.run_none_congr programs others, Run.thenFormat, Run.thenFormat, hresult]
    simp only [hsame]

end Formatted

/-! ### Many jobs -/

section Many

variable {programs : Programs} {formatter : Formatter}

/-- The output of a job is neither the output nor the description of a later one, by the places that
their paths name. -/
def Job.Separate (tree : FileTree) (job later : Job) : Prop :=
  tree.placeOf job.output ≠ tree.placeOf later.output ∧
    tree.placeOf job.output ≠ tree.placeOf later.description

instance (tree : FileTree) (job later : Job) : Decidable (job.Separate tree later) :=
  inferInstanceAs (Decidable (_ ∧ _))

theorem Job.separate_congr {tree other : FileTree} (hhere : other.here = tree.here) :
    Job.Separate other = Job.Separate tree := by
  funext job later
  simp only [Job.Separate, placeOf_congr hhere]

/-- Steps follow each other: each starts from the tree that the one before it left. -/
inductive Job.Chain : FileTree → List Job.Step → FileTree → Prop
  | nil (tree : FileTree) : Chain tree [] tree
  | cons {tree last : FileTree} {step : Job.Step} {steps : List Job.Step}
      (hbefore : step.before = tree) (hafter : Chain step.after steps last) :
      Chain tree (step :: steps) last

/-- Steps account for a run of jobs with a formatter, beside one without. -/
structure Accounts (programs : Programs) (formatter : Formatter) (jobs : List Job)
    (tree : FileTree) (plain run : Run (List (Job × Except Fault Report)))
    (steps : List Job.Step) : Prop where
  order : steps.map Job.Step.job = jobs
  chain : Job.Chain tree steps run.tree
  result : run.result = steps.map fun step ↦ (step.job, step.result)
  performed : ∀ step ∈ steps, step.Performed programs formatter
  /-- An output that has been written holds the source of its module, and so it does in the end
  without a formatter. With one, it is in the end as the formatter has left it. -/
  source : ∀ step ∈ steps, ∀ report, step.result = .ok report →
    ∃ emission, step.job.emission? step.before = .ok emission ∧
      report.summary = emission.summary ∧
      let source := .ok (tree.placeOf step.job.output, .file (.text emission.source))
      step.written.find step.job.output = source ∧
        plain.tree.find step.job.output = source ∧
        run.tree.find step.job.output = step.after.find step.job.output
  /-- No program matters but for these answers: others that give them make the same run. -/
  determined : ∀ others : Programs,
    (∀ step ∈ steps, ∀ report, step.result = .ok report → formatter.enabled = true →
      formatter.answer? others step.job.output step.written =
        formatter.answer? programs step.job.output step.written) →
      attemptAll others (some formatter) jobs tree = run

/-- Jobs keep every place but those of their outputs, if each does. -/
theorem keeps_attemptAll {active : Option Formatter} {place : List String} {jobs : List Job}
    {tree : FileTree}
    (hrun : ∀ (job : Job) tree, place ≠ tree.placeOf job.output →
      Keeps place tree (job.run programs active tree).tree)
    (hplace : ∀ job ∈ jobs, place ≠ tree.placeOf job.output) :
    Keeps place tree (attemptAll programs active jobs tree).tree := by
  induction jobs generalizing tree with
  | nil => exact .refl place tree
  | cons first jobs ih =>
    obtain ⟨hfirst, hothers⟩ := List.forall_mem_cons.mp hplace
    have hkeeps := hrun first tree hfirst
    simp only [attemptAll, Job.attempt_tree]
    refine hkeeps.trans (ih fun job hjob ↦ ?_)
    rw [placeOf_congr hkeeps.here]
    exact hothers job hjob

/-- An output that has been written holds the source that the job emits on the other tree, without
the formatter and after it. -/
theorem Job.source_of_run {job : Job} {tree other : FileTree} {places : Set (List String)}
    {report : Report} (h : SameBut places tree other)
    (hplace : tree.placeOf job.description ∉ places)
    (hresult : (job.run programs (some formatter) other).result = .ok report) :
    ∃ emission, job.emission? other = .ok emission ∧ report.summary = emission.summary ∧
      let source := .ok (tree.placeOf job.output, .file (.text emission.source))
      (job.run programs none other).tree.find job.output = source ∧
        (job.run programs none tree).tree.find job.output = source := by
  obtain ⟨hemission, hplain, hsame⟩ := Job.run_congr programs h hplace
  cases hother : (job.run programs none other).result with
  | error fault =>
    rw [Job.run_of_error programs _ hother, hother] at hresult
    exact nomatch hresult
  | ok written =>
    rw [(Job.run_of_ok programs _ hother).2] at hresult
    obtain rfl := Except.ok.inj hresult
    obtain ⟨emission, hemits, hsummary, hfound⟩ := Job.written_of_run_eq_ok programs hother
    obtain ⟨emission', hemits', -, hfound'⟩ :=
      Job.written_of_run_eq_ok programs (hplain.symm.trans hother)
    obtain rfl := Except.ok.inj (hemits.symm.trans (hemission.trans hemits'))
    rw [placeOf_congr h.here] at hfound
    exact ⟨emission, hemits, hsummary, hfound, hfound'⟩

/-- A tree without formatting and one with it, on which some jobs are still to be run: they differ
in files that no job reads. -/
structure Lockstep (places : Set (List String)) (jobs : List Job) (tree other : FileTree) :
    Prop where
  same : SameBut places tree other
  unread : ∀ job ∈ jobs, tree.placeOf job.description ∉ places
  separate : jobs.Pairwise (Job.Separate tree)

/-- A job that is run on both adds its output to the files that may differ. -/
theorem Lockstep.next (hmodest : formatter.Modest programs) {places : Set (List String)}
    {first : Job} {jobs : List Job} {tree other : FileTree}
    (h : Lockstep places (first :: jobs) tree other) :
    Lockstep (insert (tree.placeOf first.output) places) jobs
      (first.run programs none tree).tree (first.run programs (some formatter) other).tree := by
  obtain ⟨hfirst, hunread⟩ := List.forall_mem_cons.mp h.unread
  obtain ⟨hlater, hseparate⟩ := List.pairwise_cons.mp h.separate
  have hhere := first.here_run programs tree
  refine ⟨(first.run_lockstep hmodest h.same hfirst).2, fun job hjob ↦ ?_, ?_⟩
  · rw [placeOf_congr hhere, Set.mem_insert_iff, not_or]
    exact ⟨(hlater job hjob).2.symm, hunread job hjob⟩
  · rwa [Job.separate_congr hhere]

/-- The induction is on the jobs: the others run on the trees that the first one leaves. -/
theorem Lockstep.attemptAll (hmodest : formatter.Modest programs) {places : Set (List String)}
    {jobs : List Job} {tree other : FileTree} (h : Lockstep places jobs tree other) :
    let plain := Bindery.attemptAll programs none jobs tree
    let run := Bindery.attemptAll programs (some formatter) jobs other
    run.result.map verdict = plain.result.map verdict ∧
      SameBut (places ∪ {place | ∃ job ∈ jobs, place = tree.placeOf job.output}) plain.tree
        run.tree := by
  induction jobs generalizing places tree other with
  | nil => exact ⟨rfl, h.same.mono Set.subset_union_left⟩
  | cons first jobs ih =>
    obtain ⟨hfirst, -⟩ := List.forall_mem_cons.mp h.unread
    obtain ⟨hverdicts, hsame⟩ := ih (h.next hmodest)
    simp only [Bindery.attemptAll, Job.attempt_tree, Job.attempt_result, List.map_cons]
    refine ⟨?_, hsame.mono ?_⟩
    · rw [hverdicts, (first.run_lockstep hmodest h.same hfirst).1]
    · simp only [placeOf_congr (first.here_run programs tree)]
      rintro place ((rfl | hmem) | ⟨job, hjob, rfl⟩)
      · exact .inr ⟨first, List.mem_cons_self, rfl⟩
      · exact .inl hmem
      · exact .inr ⟨job, List.mem_cons_of_mem _ hjob, rfl⟩

/-- The jobs after the first one leave its output as it is. -/
theorem Lockstep.source (hmodest : formatter.Modest programs) {places : Set (List String)}
    {first : Job} {jobs : List Job} {tree other : FileTree} {report : Report}
    (h : Lockstep places (first :: jobs) tree other)
    (hresult : (first.run programs (some formatter) other).result = .ok report) :
    let plain := Bindery.attemptAll programs none jobs (first.run programs none tree).tree
    let after := (first.run programs (some formatter) other).tree
    let run := Bindery.attemptAll programs (some formatter) jobs after
    ∃ emission, first.emission? other = .ok emission ∧ report.summary = emission.summary ∧
      let source := .ok (other.placeOf first.output, .file (.text emission.source))
      (first.run programs none other).tree.find first.output = source ∧
        plain.tree.find first.output = source ∧
        run.tree.find first.output = after.find first.output := by
  intro plain after run
  obtain ⟨hfirst, -⟩ := List.forall_mem_cons.mp h.unread
  obtain ⟨hlater, -⟩ := List.pairwise_cons.mp h.separate
  obtain ⟨emission, hemission, hsummary, hwritten, hplain⟩ :=
    Job.source_of_run h.same hfirst hresult
  have hplace : other.placeOf first.output = tree.placeOf first.output :=
    placeOf_congr h.same.here first.output
  have hsame := first.sameBut_run hmodest other
  have hother : after.here = tree.here :=
    (hsame.here.trans (first.here_run programs other)).trans h.same.here
  have hkeeps : Keeps (tree.placeOf first.output) after run.tree :=
    keeps_attemptAll (fun _ _ ↦ Job.keeps_run_formatted hmodest) fun job hjob ↦ by
      rw [placeOf_congr hother]
      exact (hlater job hjob).1
  refine ⟨emission, hemission, hsummary, by rw [hplace]; exact hwritten, ?_, ?_⟩
  · rw [hplace]
    refine (keeps_attemptAll (fun _ _ ↦ Job.keeps_run programs) fun job hjob ↦ ?_).find hplain
    rw [placeOf_congr (first.here_run programs tree)]
    exact (hlater job hjob).1
  · rcases hsame.find_cases first.output with hfind | ⟨-, old, new, hold, hnew⟩
    · rw [hwritten] at hfind
      rw [hfind, hkeeps.find hfind]
    · obtain ⟨hstart, -⟩ := Prod.mk.inj (Except.ok.inj (hwritten.symm.trans hold))
      rw [← hstart] at hnew
      rw [hnew, hkeeps.find hnew]

/-- The induction is on the jobs: the step of the first one comes before the steps of the others. -/
theorem Lockstep.exists_accounts (hmodest : formatter.Modest programs)
    {places : Set (List String)} {jobs : List Job} {tree other : FileTree}
    (h : Lockstep places jobs tree other) :
    ∃ steps, Accounts programs formatter jobs other (Bindery.attemptAll programs none jobs tree)
      (Bindery.attemptAll programs (some formatter) jobs other) steps := by
  induction jobs generalizing places tree other with
  | nil =>
    exact ⟨[], rfl, .nil other, rfl, fun _ h ↦ (nomatch h), fun _ h ↦ (nomatch h), fun _ _ ↦ rfl⟩
  | cons first jobs ih =>
    obtain ⟨steps, haccounts⟩ := ih (h.next hmodest)
    obtain ⟨calls, hperformed⟩ := first.exists_performed programs formatter other
    simp only [Bindery.attemptAll, Job.attempt_tree, Job.attempt_result]
    refine ⟨_ :: steps, by rw [List.map_cons, haccounts.order], .cons rfl haccounts.chain,
      by rw [List.map_cons, haccounts.result],
      List.forall_mem_cons.mpr ⟨hperformed, haccounts.performed⟩,
      List.forall_mem_cons.mpr ⟨fun report hreport ↦ h.source hmodest hreport,
        fun step hstep report hreport ↦ ?_⟩, fun others hanswers ↦ ?_⟩
    · have hhere : (first.run programs (some formatter) other).tree.here = other.here :=
        (first.sameBut_run hmodest other).here.trans (first.here_run programs other)
      rw [← placeOf_congr hhere]
      exact haccounts.source step hstep report hreport
    · obtain ⟨hfirst, hlater⟩ := List.forall_mem_cons.mp hanswers
      have hrun := Job.run_congr_of_answer hfirst
      have hattempt : first.attempt others (some formatter) other =
          first.attempt programs (some formatter) other := by
        rw [Job.attempt, Job.attempt, hrun]
      simp only [Bindery.attemptAll, Job.attempt_tree, hattempt, Job.attempt_result,
        haccounts.determined others hlater]

end Many

/-- Whatever a program does, it changes at most the contents of the file that its last argument
leads to. -/
def Program.ChangesLast (program : Program) : Prop :=
  ∀ (called path : String) (args : List String) (tree after : FileTree) (place : List String)
    (content : Content) (exit : Exit), args.getLast? = some path →
      tree.find path = .ok (place, .file content) →
        program called args tree = .ok (exit, after) → SameBut {place} tree after

/-- A script passes its arguments on to what runs it, so it changes no more than that does. The
induction is on the depth of scripts that are run by scripts. -/
theorem Programs.changesLast_ofFile {programs : Programs}
    (hprograms : ∀ name program, programs name = some program → program.ChangesLast) (depth : Nat)
    (content : Content) : (programs.ofFile depth content).ChangesLast := by
  induction depth generalizing content with
  | zero => exact fun _ _ _ _ _ _ _ _ _ _ h ↦ nomatch h
  | succ depth ih =>
    intro called path args tree after place content' exit hlast hfind h
    rw [Programs.ofFile] at h
    split at h
    · exact nomatch h
    · rename_i interpreter argument _
      have hpassed : (argument.toList ++ called :: args).getLast? = some path := by
        rw [List.getLast?_append, List.getLast?_cons, hlast]
        rfl
      simp only at h
      split at h
      · exact nomatch h
      · split at h
        · split at h
          · exact hprograms _ _ ‹_› _ _ _ _ _ _ _ _ hpassed hfind h
          · exact nomatch h
        · exact ih _ _ _ _ _ _ _ _ _ hpassed hfind h
        · exact nomatch h

/-- What is found is a program or a script. -/
theorem Programs.find?_cases {programs : Programs} {tree : FileTree} {name path : String}
    {program : Program} (h : programs.find? tree name = some (path, program)) :
    (∃ file, programs file = some program) ∨
      ∃ content, program = programs.ofFile interpreterDepth content := by
  obtain ⟨found, -, h⟩ := List.exists_of_findSome?_eq_some h
  split at h
  · split at h
    · exact nomatch h
    · split at h
      · obtain ⟨program, hprogram, h⟩ := Option.map_eq_some_iff.mp h
        obtain ⟨-, rfl⟩ := Prod.mk.inj h
        exact .inl ⟨_, hprogram⟩
      · obtain ⟨-, rfl⟩ := Prod.mk.inj (Option.some.inj h)
        exact .inr ⟨_, rfl⟩
      · exact nomatch h
  · exact nomatch h

/-- A formatter is modest, scripts included, when all programs keep to the file they are given. -/
theorem Formatter.modest_of_changesLast {programs : Programs} (formatter : Formatter)
    (hprograms : ∀ name program, programs name = some program → program.ChangesLast) :
    formatter.Modest programs := by
  intro tree after path place content exit hfind hanswer
  obtain ⟨⟨found, program⟩, hfound, hstarted⟩ := Option.map_eq_some_iff.mp hanswer
  obtain ⟨-, hstart⟩ := Prod.mk.inj hstarted
  have hprogram : program.ChangesLast := by
    rcases Programs.find?_cases hfound with ⟨name, hname⟩ | ⟨content, rfl⟩
    · exact hprograms name program hname
    · exact Programs.changesLast_ofFile hprograms _ content
  unfold Program.start at hstart
  split_ifs at hstart
  exact hprogram _ path _ tree after _ content exit List.getLast?_concat hfind hstart

/-- Ends a text in a new line. -/
def tidy : Program := fun _ args tree ↦
  match args.getLast?.map tree.find with
  | some (.ok (place, .file content)) =>
    .ok (⟨some 0, ""⟩, tree.set place (.file (content.append "\n")))
  | _ => .ok (⟨some 1, "no file"⟩, tree)

theorem changesLast_tidy : tidy.ChangesLast := by
  intro called path args tree after place content exit hlast hfind h
  simp only [tidy, hlast, Option.map_some, hfind] at h
  obtain ⟨-, rfl⟩ := Prod.mk.inj (Except.ok.inj h)
  obtain ⟨-, -, hcontent⟩ := find_eq_ok_iff.mp hfind
  have hplace : place ≠ [] := by
    rintro rfl
    exact nomatch hcontent
  refine ⟨rfl, fun q ↦ ?_⟩
  rw [get?_set tree _ _ hplace]
  split_ifs with hsame
  · exact .inr ⟨hsame, content, _, hsame ▸ hcontent, rfl⟩
  · exact .inl rfl

/-- The one program there is. -/
def tidyPrograms : Programs := fun name ↦ if name = "tidy" then some tidy else none

def missingJob : Job := ⟨"raymath", "missing.json", "raymath.v", none⟩

def emptyJob : Job := ⟨"raylib", "api.json", "raylib.v", none⟩

/-- A job without a description, and one with. -/
def tidyConfig : Config := ⟨⟨true, "tidy", ["-w"]⟩, [missingJob, emptyJob]⟩

/-- A tree with the program and the description of an empty interface. -/
def tidyTree : FileTree :=
  ⟨["work"],
    [(["usr"], .directory), (["usr", "bin"], .directory),
      (["usr", "bin", "tidy"], .program "tidy"), (["work"], .directory),
      (["work", "api.json"], .file (.text "\x7b\x7d"))], []⟩

end Bindery
