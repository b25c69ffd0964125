import Bindery.Config.File
import Bindery.Proofs.Traversal
import Mathlib

/-!
# Configurations that are given in part

An `Overlay` has values for some of the keys of a configuration. A document gives an overlay if it
has just these values under the keys, whatever else it has beside them; it is loaded as the standard
configuration with the values in place of its own (`load_overlay`). Where a known key has a value of
another type, or a job has an unknown key or lacks one it needs, the document is `Flawed`, and
nothing of it is used. Every document that can be parsed is of one of the two kinds.

A formatter and a job may be lists of their values in order instead of tables, and a point in time
is taken for a formatter without known keys (`load_of_untabled_format`).
-/

set_option autoImplicit false
set_option relaxedAutoImplicit false

namespace Bindery

open Toml Traversal

/-! ### Values and their types -/

namespace Toml.Value

/-- The value that a list of strings is read from. -/
def ofTexts (items : List String) : Value := .list (items.map .text)

/-- The value of one of the keys of a record: that of a table stands under the key, that of a list
at the place that the key has among the keys. -/
def field? (keys : List String) (key : String) : Value → Option Value
  | .table entries => entries.lookup key
  | .list items => items[keys.idxOf key]?
  | _ => none

theorem text?_eq_some_iff {value : Value} {text : String} :
    value.text? = some text ↔ value = .text text := by
  cases value <;> simp [text?]

theorem boolean?_eq_some_iff {value : Value} {flag : Bool} :
    value.boolean? = some flag ↔ value = .boolean flag := by
  cases value <;> simp [boolean?]

theorem list?_eq_some_iff {value : Value} {items : List Value} :
    value.list? = some items ↔ value = .list items := by
  cases value <;> simp [list?]

theorem texts?_eq_some_iff {value : Value} {items : List String} :
    value.texts? = some items ↔ value = ofTexts items := by
  have htexts : ∀ values : List Value, values.mapM text? = some items ↔
      values = items.map .text := by
    intro values
    simp only [mapM_eq_some_iff, text?_eq_some_iff]
    rw [← List.forall₂_eq_eq_eq, List.forall₂_map_right_iff]
  rw [texts?, Option.bind_eq_bind, Option.bind_eq_some_iff]
  constructor
  · rintro ⟨values, hvalues, hitems⟩
    rw [list?_eq_some_iff.mp hvalues, (htexts values).mp hitems, ofTexts]
  · rintro rfl
    exact ⟨_, rfl, (htexts _).mpr rfl⟩

end Toml.Value

/-- A value that may be missing is read as one that is given or not. -/
theorem orDefault_eq_some_iff {α : Type} {standard result : α} {read : Value → Option α}
    {write : α → Value} (hread : ∀ value x, read value = some x ↔ value = write x)
    {found : Option Value} :
    orDefault standard read found = some result ↔
      ∃ given : Option α, found = given.map write ∧ result = given.getD standard := by
  cases found with
  | none =>
    constructor
    · intro h
      exact ⟨none, rfl, (Option.some.inj h).symm⟩
    · rintro ⟨given, hnone, rfl⟩
      rw [Option.map_eq_none_iff.mp hnone.symm]
      rfl
  | some value =>
    rw [orDefault, hread]
    constructor
    · rintro rfl
      exact ⟨some result, rfl, rfl⟩
    · rintro ⟨given, hsome, rfl⟩
      obtain ⟨x, rfl, rfl⟩ := Option.map_eq_some_iff.mp hsome.symm
      rfl

/-! ### Jobs -/

namespace Job

/-- A job is read from a record with its values, and with no other keys if it is a table. -/
structure IsGivenBy (job : Job) (value : Value) : Prop where
  known : (∃ items, value = .list items) ∨
    ∃ entries, value = .table entries ∧ ∀ entry ∈ entries, entry.1 ∈ keys
  module : value.field? keys "module" = some (.text job.module)
  description : value.field? keys "description" = some (.text job.description)
  output : value.field? keys "output" = some (.text job.output)
  name : value.field? keys "name" = job.name.map .text

/-- A value from which no job can be read. -/
inductive Flawed (value : Value) : Prop
  | shape (htable : ∀ entries, value ≠ .table entries) (hlist : ∀ items, value ≠ .list items)
  | unknown {entries : List (String × Value)} {entry : String × Value}
      (h : value = .table entries) (hentry : entry ∈ entries) (hunknown : entry.1 ∉ keys)
  | missing {key : String} (hkey : key ∈ ["module", "description", "output"])
      (h : value.field? keys key = none)
  | mistyped {key : String} {found : Value} (hkey : key ∈ keys)
      (h : value.field? keys key = some found) (htype : ∀ text, found ≠ .text text)

/-- A text that has to be there. -/
theorem bind_text?_eq_some_iff {α : Type} {found : Option Value} {rest : String → Option α}
    {result : α} : (found.bind fun value ↦ value.text?.bind rest) = some result ↔
      ∃ text, found = some (.text text) ∧ rest text = some result := by
  simp only [Option.bind_eq_some_iff, Value.text?_eq_some_iff]
  constructor
  · rintro ⟨value, rfl, text, rfl, h⟩
    exact ⟨text, rfl, h⟩
  · rintro ⟨text, rfl, h⟩
    exact ⟨_, rfl, text, rfl, h⟩

theorem ofValues?_eq_some_iff {job : Job} {module description output name : Option Value} :
    ofValues? module description output name = some job ↔
      module = some (.text job.module) ∧ description = some (.text job.description) ∧
        output = some (.text job.output) ∧ name = job.name.map .text := by
  have hneeded : ∀ given : Option String, (module.bind fun value ↦ value.text?.bind fun module ↦
      description.bind fun value ↦ value.text?.bind fun description ↦
        output.bind fun value ↦ value.text?.bind fun output ↦
          some (Job.mk module description output given)) = some job ↔
      module = some (.text job.module) ∧ description = some (.text job.description) ∧
        output = some (.text job.output) ∧ given = job.name := by
    intro given
    simp only [bind_text?_eq_some_iff, Option.some.injEq]
    constructor
    · rintro ⟨_, hmodule, _, hdescription, _, houtput, rfl⟩
      exact ⟨hmodule, hdescription, houtput, rfl⟩
    · rintro ⟨hmodule, hdescription, houtput, rfl⟩
      exact ⟨_, hmodule, _, hdescription, _, houtput, rfl⟩
  unfold ofValues?
  cases name with
  | none =>
    refine (hneeded none).trans ?_
    rw [eq_comm (a := none), eq_comm (a := none), Option.map_eq_none_iff]
  | some value =>
    cases htext : value.text? with
    | none =>
      refine iff_of_false (by simp [htext]) fun h ↦ ?_
      obtain ⟨text, -, hvalue⟩ := Option.map_eq_some_iff.mp h.2.2.2.symm
      exact absurd (htext.symm.trans (Value.text?_eq_some_iff.mpr hvalue.symm)) (by simp)
    | some text =>
      have hvalue := Value.text?_eq_some_iff.mp htext
      simp only [htext, Option.map_some, Option.bind_eq_bind, Option.bind_some]
      refine (hneeded (some text)).trans ?_
      subst hvalue
      rw [eq_comm (a := some text), eq_comm (a := some (Value.text text)), Option.map_eq_some_iff]
      simp

theorem ofValue?_eq_some_iff {job : Job} {value : Value} :
    ofValue? value = some job ↔ job.IsGivenBy value := by
  cases value with
  | table entries =>
    rw [ofValue?]
    split_ifs with hknown
    · rw [ofValues?_eq_some_iff]
      simp only [List.all_eq_true, List.contains_iff_mem] at hknown
      constructor
      · rintro ⟨hmodule, hdescription, houtput, hname⟩
        exact ⟨.inr ⟨entries, rfl, hknown⟩, hmodule, hdescription, houtput, hname⟩
      · intro h
        exact ⟨h.module, h.description, h.output, h.name⟩
    · simp only [List.all_eq_true, List.contains_iff_mem] at hknown
      refine iff_of_false (by simp) fun h ↦ hknown ?_
      rcases h.known with ⟨items, hlist⟩ | ⟨others, htable, hothers⟩
      · exact absurd hlist (by simp)
      · rwa [Value.table.inj htable]
  | list items =>
    rw [ofValue?, ofValues?_eq_some_iff]
    constructor
    · rintro ⟨hmodule, hdescription, houtput, hname⟩
      exact ⟨.inl ⟨items, rfl⟩, hmodule, hdescription, houtput, hname⟩
    · intro h
      exact ⟨h.module, h.description, h.output, h.name⟩
  | text | integer | real | boolean | moment =>
    refine iff_of_false (by simp [ofValue?]) fun h ↦ ?_
    rcases h.known with ⟨items, hlist⟩ | ⟨entries, htable, -⟩
    · exact absurd hlist (by simp)
    · exact absurd htable (by simp)

/-- What is found for a key is a text, unless the value is flawed. -/
theorem text_or_flawed {value found : Value} {key : String} (hkey : key ∈ keys)
    (h : value.field? keys key = some found) : (∃ text, found = .text text) ∨ Flawed value := by
  cases htext : found.text? with
  | some text => exact .inl ⟨text, Value.text?_eq_some_iff.mp htext⟩
  | none =>
    refine .inr (.mistyped hkey h fun text hfound ↦ ?_)
    exact absurd (htext.symm.trans (Value.text?_eq_some_iff.mpr hfound)) (by simp)

theorem needed_or_flawed (value : Value) (key : String)
    (hkey : key ∈ ["module", "description", "output"]) :
    (∃ text, value.field? keys key = some (.text text)) ∨ Flawed value := by
  cases hfound : value.field? keys key with
  | none => exact .inr (.missing hkey hfound)
  | some found =>
    have hknown : key ∈ keys := List.mem_append_left ["name"] hkey
    refine (text_or_flawed hknown hfound).imp_left ?_
    rintro ⟨text, rfl⟩
    exact ⟨text, rfl⟩

/-- A job can be read from every value without a flaw. -/
theorem exists_or_flawed (value : Value) : (∃ job : Job, job.IsGivenBy value) ∨ Flawed value := by
  by_cases hflawed : Flawed value
  · exact .inr hflawed
  obtain ⟨module, hmodule⟩ :=
    (needed_or_flawed value "module" (by simp)).resolve_right hflawed
  obtain ⟨description, hdescription⟩ :=
    (needed_or_flawed value "description" (by simp)).resolve_right hflawed
  obtain ⟨output, houtput⟩ :=
    (needed_or_flawed value "output" (by simp)).resolve_right hflawed
  obtain ⟨name, hname⟩ : ∃ name : Option String,
      value.field? keys "name" = name.map .text := by
    cases hfound : value.field? keys "name" with
    | none => exact ⟨none, rfl⟩
    | some found =>
      obtain ⟨text, rfl⟩ :=
        (text_or_flawed (by simp [keys]) hfound).resolve_right hflawed
      exact ⟨some text, rfl⟩
  refine .inl ⟨⟨module, description, output, name⟩, ?_, hmodule, hdescription, houtput, hname⟩
  cases value with
  | list items => exact .inl ⟨items, rfl⟩
  | table entries =>
    refine .inr ⟨entries, rfl, fun entry hentry ↦ by_contra fun hunknown ↦ ?_⟩
    exact hflawed (.unknown rfl hentry hunknown)
  | text | integer | real | boolean | moment =>
    exact absurd (.shape (by simp) (by simp)) hflawed

/-- No job is given by a value with a flaw. -/
theorem Flawed.not_isGivenBy {value : Value} (h : Flawed value) (job : Job) :
    ¬ job.IsGivenBy value := by
  intro hgiven
  cases h with
  | shape htable hlist =>
    rcases hgiven.known with ⟨items, rfl⟩ | ⟨entries, rfl, -⟩
    · exact hlist items rfl
    · exact htable entries rfl
  | @unknown entries entry h hentry hunknown =>
    subst h
    rcases hgiven.known with ⟨items, hlist⟩ | ⟨others, htable, hothers⟩
    · exact nomatch hlist
    · exact hunknown (hothers entry (Value.table.inj htable ▸ hentry))
  | missing hkey h =>
    simp only [List.mem_cons, List.not_mem_nil, or_false] at hkey
    rcases hkey with rfl | rfl | rfl
    · exact absurd (h.symm.trans hgiven.module) (by simp)
    · exact absurd (h.symm.trans hgiven.description) (by simp)
    · exact absurd (h.symm.trans hgiven.output) (by simp)
  | @mistyped key found hkey h htype =>
    simp only [keys, List.mem_cons, List.not_mem_nil, or_false] at hkey
    rcases hkey with rfl | rfl | rfl | rfl
    · exact htype _ (Option.some.inj (h.symm.trans hgiven.module))
    · exact htype _ (Option.some.inj (h.symm.trans hgiven.description))
    · exact htype _ (Option.some.inj (h.symm.trans hgiven.output))
    · obtain ⟨text, -, htext⟩ := Option.map_eq_some_iff.mp (hgiven.name.symm.trans h)
      exact htype text htext.symm

end Job

/-! ### The formatter -/

namespace Formatter

/-- The keys of a formatter. -/
def keys : List String := ["enabled", "program", "args"]

theorem ofValues?_eq_some_iff {formatter : Formatter} {enabled program args : Option Value} :
    ofValues? enabled program args = some formatter ↔
      ∃ (flag : Option Bool) (name : Option String) (items : Option (List String)),
        enabled = flag.map .boolean ∧ program = name.map .text ∧ args = items.map .ofTexts ∧
          formatter = ⟨flag.getD Config.defaultFormatter.enabled,
            name.getD Config.defaultFormatter.program,
            items.getD Config.defaultFormatter.args⟩ := by
  simp only [ofValues?, Option.bind_eq_bind, Option.bind_eq_some_iff, Option.pure_def,
    Option.some.injEq, orDefault_eq_some_iff fun _ _ ↦ Value.boolean?_eq_some_iff,
    orDefault_eq_some_iff fun _ _ ↦ Value.text?_eq_some_iff,
    orDefault_eq_some_iff fun _ _ ↦ Value.texts?_eq_some_iff]
  constructor
  · rintro ⟨_, ⟨flag, hflag, rfl⟩, _, ⟨name, hname, rfl⟩, _, ⟨items, hitems, rfl⟩, rfl⟩
    exact ⟨flag, name, items, hflag, hname, hitems, rfl⟩
  · rintro ⟨flag, name, items, hflag, hname, hitems, rfl⟩
    exact ⟨_, ⟨flag, hflag, rfl⟩, _, ⟨name, hname, rfl⟩, _, ⟨items, hitems, rfl⟩, rfl⟩

/-- What a formatter is read from: a table, a list, or a point in time, which has none of its keys.
-/
inductive Shaped : Value → Prop
  | table (entries : List (String × Value)) : Shaped (.table entries)
  | list (items : List Value) : Shaped (.list items)
  | moment (written : List Char) : Shaped (.moment written)

theorem ofValue?_eq_some_iff {formatter : Formatter} {value : Value} :
    ofValue? value = some formatter ↔ Shaped value ∧
      ofValues? (value.field? keys "enabled") (value.field? keys "program")
        (value.field? keys "args") = some formatter := by
  cases value with
  | table entries => exact (and_iff_right (Shaped.table entries)).symm
  | list items => exact (and_iff_right (Shaped.list items)).symm
  | moment written => exact (and_iff_right (Shaped.moment written)).symm
  | text | integer | real | boolean => exact iff_of_false nofun fun h ↦ nomatch h.1

end Formatter

/-! ### Configurations -/

/-- Values for some of the keys of a configuration. -/
structure Overlay where
  enabled : Option Bool
  program : Option String
  args : Option (List String)
  jobs : Option (List Job)

namespace Overlay

/-- A configuration with the values that are given in place of its own. -/
def onto (overlay : Overlay) (config : Config) : Config where
  format := ⟨overlay.enabled.getD config.format.enabled,
    overlay.program.getD config.format.program, overlay.args.getD config.format.args⟩
  jobs := overlay.jobs.getD config.jobs

end Overlay

namespace Config

/-- The value of a key of the formatter. -/
def formatField? (entries : List (String × Value)) (key : String) : Option Value :=
  (entries.lookup "format").bind (Value.field? Formatter.keys key)

/-- The jobs that a value gives, if it is there. -/
inductive GivesJobs : Option Value → Option (List Job) → Prop
  | absent : GivesJobs none none
  | list {items : List Value} {jobs : List Job}
      (h : List.Forall₂ (fun item job ↦ Job.IsGivenBy job item) items jobs) :
      GivesJobs (some (.list items)) (some jobs)

theorem GivesJobs.exists_list {value : Value} {given : Option (List Job)}
    (h : GivesJobs (some value) given) : ∃ items, value = .list items := by
  cases h with
  | @list items jobs h => exact ⟨items, rfl⟩

theorem GivesJobs.exists_job {items : List Value} {given : Option (List Job)}
    (h : GivesJobs (some (.list items)) given) {item : Value} (hitem : item ∈ items) :
    ∃ job : Job, job.IsGivenBy item := by
  cases h with
  | list h =>
    obtain ⟨job, -, hjob⟩ := exists_of_mem h hitem
    exact ⟨job, hjob⟩

/-- The entries of a document have the values of an overlay under its keys, and nothing under the
other known keys. -/
structure Gives (entries : List (String × Value)) (overlay : Overlay) : Prop where
  shaped : ∀ value, entries.lookup "format" = some value → Formatter.Shaped value
  enabled : formatField? entries "enabled" = overlay.enabled.map .boolean
  program : formatField? entries "program" = overlay.program.map .text
  args : formatField? entries "args" = overlay.args.map .ofTexts
  jobs : GivesJobs (entries.lookup "jobs") overlay.jobs

/-- The entries of a document from which no configuration can be read. -/
inductive Flawed (entries : List (String × Value)) : Prop
  | format {value : Value} (h : entries.lookup "format" = some value)
      (hshape : ¬ Formatter.Shaped value)
  | enabled {value : Value} (h : formatField? entries "enabled" = some value)
      (htype : ∀ flag, value ≠ .boolean flag)
  | program {value : Value} (h : formatField? entries "program" = some value)
      (htype : ∀ text, value ≠ .text text)
  | args {value : Value} (h : formatField? entries "args" = some value)
      (htype : ∀ items, value ≠ .ofTexts items)
  | jobs {value : Value} (h : entries.lookup "jobs" = some value)
      (htype : ∀ items, value ≠ .list items)
  | job {items : List Value} {item : Value} (h : entries.lookup "jobs" = some (.list items))
      (hitem : item ∈ items) (hflawed : Job.Flawed item)

theorem format_eq_some_iff {entries : List (String × Value)} {formatter : Formatter} :
    orDefault defaultFormatter Formatter.ofValue? (entries.lookup "format") = some formatter ↔
      (∀ value, entries.lookup "format" = some value → Formatter.Shaped value) ∧
        Formatter.ofValues? (formatField? entries "enabled") (formatField? entries "program")
          (formatField? entries "args") = some formatter := by
  unfold formatField?
  cases entries.lookup "format" with
  | none => exact (and_iff_right nofun).symm
  | some value =>
    refine Formatter.ofValue?_eq_some_iff.trans (and_congr_left fun _ ↦ ?_)
    exact ⟨fun h other hother ↦ Option.some.inj hother ▸ h, fun h ↦ h value rfl⟩

theorem jobs_eq_some_iff {found : Option Value} {jobs : List Job} :
    orDefault defaultJobs (fun value ↦ do (← value.list?).mapM Job.ofValue?) found = some jobs ↔
      ∃ given, GivesJobs found given ∧ jobs = given.getD defaultJobs := by
  cases found with
  | none =>
    constructor
    · intro h
      exact ⟨none, .absent, (Option.some.inj h).symm⟩
    · rintro ⟨_, ⟨⟩, rfl⟩
      rfl
  | some value =>
    simp only [orDefault, Option.bind_eq_bind, Option.bind_eq_some_iff, Value.list?_eq_some_iff,
      mapM_eq_some_iff, Job.ofValue?_eq_some_iff]
    constructor
    · rintro ⟨items, rfl, hjobs⟩
      exact ⟨some jobs, .list hjobs, rfl⟩
    · rintro ⟨_, ⟨⟩ | hjobs, rfl⟩
      exact ⟨_, rfl, hjobs⟩

/-- A configuration is read exactly from the entries that give an overlay, and is the standard one
with its values. -/
theorem ofEntries?_eq_some_iff {entries : List (String × Value)} {config : Config} :
    ofEntries? entries = some config ↔
      ∃ overlay, Gives entries overlay ∧ config = overlay.onto standard := by
  simp only [ofEntries?, Option.bind_eq_bind, Option.bind_eq_some_iff, Option.pure_def,
    Option.some.injEq, format_eq_some_iff, Formatter.ofValues?_eq_some_iff]
  constructor
  · rintro ⟨_, ⟨hshaped, flag, name, items, henabled, hprogram, hargs, rfl⟩, jobs, hjobs, rfl⟩
    obtain ⟨given, hgiven, rfl⟩ := jobs_eq_some_iff.mp hjobs
    exact ⟨⟨flag, name, items, given⟩, ⟨hshaped, henabled, hprogram, hargs, hgiven⟩, rfl⟩
  · rintro ⟨overlay, h, rfl⟩
    exact ⟨_, ⟨h.shaped, _, _, _, h.enabled, h.program, h.args, rfl⟩, _,
      jobs_eq_some_iff.mpr ⟨_, h.jobs, rfl⟩, rfl⟩

/-- What may be missing is a value as it is written, unless something else is found. -/
theorem exists_map_or {α : Type} {read : Value → Option α} {write : α → Value}
    (hread : ∀ value x, read value = some x ↔ value = write x) (found : Option Value) :
    (∃ given : Option α, found = given.map write) ∨
      ∃ value, found = some value ∧ ∀ x, value ≠ write x := by
  cases found with
  | none => exact .inl ⟨none, rfl⟩
  | some value =>
    cases hvalue : read value with
    | some x => exact .inl ⟨some x, congrArg some ((hread value x).mp hvalue)⟩
    | none =>
      refine .inr ⟨value, rfl, fun x hx ↦ ?_⟩
      exact absurd (hvalue.symm.trans ((hread value x).mpr hx)) (by simp)

theorem exists_jobs_or_flawed (entries : List (String × Value)) :
    (∃ given, GivesJobs (entries.lookup "jobs") given) ∨ Flawed entries := by
  cases hjobs : entries.lookup "jobs" with
  | none => exact .inl ⟨none, .absent⟩
  | some value =>
    cases hlist : value.list? with
    | none =>
      refine .inr (.jobs hjobs fun items hvalue ↦ ?_)
      exact absurd (hlist.symm.trans (Value.list?_eq_some_iff.mpr hvalue)) (by simp)
    | some items =>
      obtain rfl := Value.list?_eq_some_iff.mp hlist
      by_cases hflawed : ∃ item ∈ items, Job.Flawed item
      · obtain ⟨item, hitem, hflawed⟩ := hflawed
        exact .inr (.job hjobs hitem hflawed)
      · have hall : (items.mapM Job.ofValue?).isSome = true := by
          rw [isSome_mapM, List.all_eq_true]
          intro item hitem
          obtain ⟨job, hjob⟩ := (Job.exists_or_flawed item).resolve_right fun h ↦
            hflawed ⟨item, hitem, h⟩
          rw [Job.ofValue?_eq_some_iff.mpr hjob]
          rfl
        obtain ⟨jobs, hread⟩ := Option.isSome_iff_exists.mp hall
        exact .inl ⟨some jobs, .list ((mapM_eq_some_iff.mp hread).imp fun _ _ ↦
          Job.ofValue?_eq_some_iff.mp)⟩

/-- Every document gives an overlay or has a flaw. -/
theorem exists_or_flawed (entries : List (String × Value)) :
    (∃ overlay, Gives entries overlay) ∨ Flawed entries := by
  by_cases hflawed : Flawed entries
  · exact .inr hflawed
  obtain ⟨flag, henabled⟩ := (exists_map_or (fun _ _ ↦ Value.boolean?_eq_some_iff)
    (formatField? entries "enabled")).resolve_right fun ⟨_, h, htype⟩ ↦ hflawed (.enabled h htype)
  obtain ⟨name, hprogram⟩ := (exists_map_or (fun _ _ ↦ Value.text?_eq_some_iff)
    (formatField? entries "program")).resolve_right fun ⟨_, h, htype⟩ ↦ hflawed (.program h htype)
  obtain ⟨items, hargs⟩ := (exists_map_or (fun _ _ ↦ Value.texts?_eq_some_iff)
    (formatField? entries "args")).resolve_right fun ⟨_, h, htype⟩ ↦ hflawed (.args h htype)
  obtain ⟨jobs, hjobs⟩ := (exists_jobs_or_flawed entries).resolve_right hflawed
  exact .inl ⟨⟨flag, name, items, jobs⟩, fun value hvalue ↦ by_contra fun hshape ↦
    hflawed (.format hvalue hshape), henabled, hprogram, hargs, hjobs⟩

theorem Flawed.not_gives {entries : List (String × Value)} (h : Flawed entries)
    (overlay : Overlay) : ¬ Gives entries overlay := by
  -- a key whose value is written as the key takes it has no value of another type
  have hwritten : ∀ {α : Type} {write : α → Value} {found : Option Value} {given : Option α}
      {value : Value}, found = given.map write → found = some value →
        (∀ x, value ≠ write x) → False := by
    intro α write found given value hgiven hvalue htype
    obtain ⟨x, -, hx⟩ := Option.map_eq_some_iff.mp (hgiven.symm.trans hvalue)
    exact htype x hx.symm
  intro hgives
  cases h with
  | format h hshape => exact hshape (hgives.shaped _ h)
  | enabled h htype => exact hwritten hgives.enabled h htype
  | program h htype => exact hwritten hgives.program h htype
  | args h htype => exact hwritten hgives.args h htype
  | jobs h htype =>
    obtain ⟨items, rfl⟩ := (h ▸ hgives.jobs).exists_list
    exact htype items rfl
  | job h hitem hflawed =>
    obtain ⟨job, hjob⟩ := (h ▸ hgives.jobs).exists_job hitem
    exact hflawed.not_isGivenBy job hjob

/-- A file with a document that can be parsed is loaded as its entries are read. -/
theorem load_of_parse? {tree : FileTree} {path document : String} {entries : List (String × Value)}
    (hread : tree.readText path = .ok document) (hparse : Toml.parse? document = some entries) :
    load tree path = match ofEntries? entries with
      | some config => .ok config
      | none => .error (.malformed path) := by
  cases hentries : ofEntries? entries <;> simp [load, hread, parse?, hparse, hentries]

/-- A document that gives values for some keys is loaded as the standard configuration with just
these values in place of its own: whichever keys are given, whatever unknown keys are there, and
with the jobs in their order. A document with a flaw is refused as a whole. There are no others. -/
theorem load_overlay {tree : FileTree} {path document : String} {entries : List (String × Value)}
    (hread : tree.readText path = .ok document) (hparse : Toml.parse? document = some entries) :
    (∀ overlay, Gives entries overlay → load tree path = .ok (overlay.onto standard)) ∧
      (Flawed entries → load tree path = .error (.malformed path)) ∧
      ((∃ overlay, Gives entries overlay) ∨ Flawed entries) := by
  have hload := load_of_parse? hread hparse
  refine ⟨fun overlay hgives ↦ ?_, fun hflawed ↦ ?_, exists_or_flawed entries⟩
  · rw [hload, ofEntries?_eq_some_iff.mpr ⟨overlay, hgives, rfl⟩]
  · cases hentries : ofEntries? entries with
    | none => rw [hload, hentries]
    | some config =>
      obtain ⟨overlay, hgives, -⟩ := ofEntries?_eq_some_iff.mp hentries
      exact absurd hgives (hflawed.not_gives overlay)

/-- A directory with a configuration. -/
def configured (document : String) : FileTree :=
  ⟨[], [(["Raygen.toml"], .file (.text document))], []⟩

theorem readText_configured (document : String) :
    (configured document).readText fileName = .ok document :=
  rfl

/-- A document that gives one key of the formatter and a job, beside unknown keys. -/
def partialDocument : String :=
  "x = 0\nformat.y = 4\nformat.args = []\n" ++
    "[[jobs]]\nmodule = \"m\"\ndescription = \"d\"\noutput = \"o\"\n"

/-- The document is loaded over the standard configuration; one with an unknown key in a job is
refused. -/
theorem load_overlay_partial :
    load (configured partialDocument) fileName =
      .ok ⟨⟨true, "v", []⟩, [⟨"m", "d", "o", none⟩]⟩ ∧
      load (configured "[[jobs]]\nlang = 0\n") fileName = .error (.malformed fileName) := by
  have hgiven : Toml.parse? partialDocument =
      some [("x", .integer 0), ("format", .table [("y", .integer 4), ("args", .list [])]),
        ("jobs", .list [.table [("module", .text "m"), ("description", .text "d"),
          ("output", .text "o")]])] := by
    cbv
  have hflawed : Toml.parse? "[[jobs]]\nlang = 0\n" =
      some [("jobs", .list [.table [("lang", .integer 0)]])] := by
    cbv
  constructor
  · have hjob : Job.IsGivenBy ⟨"m", "d", "o", none⟩ (.table [("module", .text "m"),
        ("description", .text "d"), ("output", .text "o")]) :=
      ⟨.inr ⟨_, rfl, by simp [Job.keys]⟩, rfl, rfl, rfl, rfl⟩
    refine (load_overlay (readText_configured _) hgiven).1 ⟨none, none, some [], some [_]⟩
      ⟨fun value hvalue ↦ ?_, rfl, rfl, rfl, .list (.cons hjob .nil)⟩
    obtain rfl := Option.some.inj hvalue
    exact .table _
  · refine (load_overlay (readText_configured _) hflawed).2.1 ?_
    have hunknown : Job.Flawed (.table [("lang", .integer 0)]) :=
      .unknown rfl (List.mem_singleton_self _) (by decide)
    exact .job rfl (List.mem_singleton_self _) hunknown

/-- A list in the place of the formatter is not refused. -/
theorem load_of_untabled_format : ¬ ∀ (tree : FileTree) (path document : String)
    (entries : List (String × Value)) (value : Value), tree.readText path = .ok document →
      Toml.parse? document = some entries → entries.lookup "format" = some value →
        (∀ inner, value ≠ .table inner) → load tree path = .error (.malformed path) := by
  intro hall
  have hparse : Toml.parse? "format = []\n" = some [("format", .list [])] := by cbv
  have hrefused := hall (configured "format = []\n") fileName "format = []\n" _ (.list [])
    (readText_configured _) hparse rfl (by simp)
  have hloaded : load (configured "format = []\n") fileName = .ok standard :=
    load_of_parse? (readText_configured _) hparse
  exact absurd (hrefused.symm.trans hloaded) (by simp)

end Config

end Bindery
