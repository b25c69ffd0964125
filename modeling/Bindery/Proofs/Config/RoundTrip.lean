import Bindery.Config.File
import Bindery.Proofs.FileTree.Writing
import Bindery.Proofs.Toml.Document

/-!
# Saved configurations are loaded

The text of a configuration is a document with a section for the formatter and one for each job
(`write_eq`), so it is parsed as that configuration (`parse?_write`). A configuration that has been
saved is loaded from where it was saved (`load_of_save`), unless a device stands there, which takes
any text and keeps none.
-/

set_option autoImplicit false
set_option relaxedAutoImplicit false

namespace Bindery

open Toml

/-! ### The lines of a configuration -/

/-- A line with a string. -/
def stringLine (key : String) (bare : IsBare key) (value : String) : Toml.Line :=
  ⟨key, writeString value, .text value, bare, .string value⟩

namespace Formatter

/-- The lines of a formatter. -/
def lines (formatter : Formatter) : List Toml.Line :=
  [⟨"enabled", _, .boolean formatter.enabled, by decide, .boolean formatter.enabled⟩,
   stringLine "program" (by decide) formatter.program,
   ⟨"args", _, .list (formatter.args.map .text), by decide, .strings formatter.args⟩]

/-- The section of a formatter. -/
def block (formatter : Formatter) : Block where
  element := false
  key := "format"
  bare := by decide
  lines := formatter.lines
  distinct := by simp [lines, stringLine]

theorem write_block (formatter : Formatter) :
    formatter.block.write = Config.writeFormatter formatter := by
  have henabled : "[format]\nenabled = ".toList =
      "[format]\n".toList ++ ("enabled".toList ++ [' ', '=', ' ']) := by decide
  have hprogram : "\nprogram = ".toList = '\n' :: ("program".toList ++ [' ', '=', ' ']) := by decide
  have hargs : "\nargs = ".toList = '\n' :: ("args".toList ++ [' ', '=', ' ']) := by decide
  have hheader : formatter.block.header = "[format]\n".toList := by simp [Block.header, block]
  have hlines : formatter.block.lines = formatter.lines := rfl
  rw [Block.write, hheader, hlines]
  unfold lines Config.writeFormatter
  simp only [writeLines, Toml.Line.write, stringLine, henabled, hprogram, hargs, List.append_assoc,
    List.cons_append, List.nil_append, List.flatMap_cons, List.flatMap_nil]

end Formatter

namespace Job

/-- The lines of a job; that of the name is left out if there is none. -/
def lines (job : Job) : List Toml.Line :=
  [stringLine "module" (by decide) job.module,
   stringLine "description" (by decide) job.description,
   stringLine "output" (by decide) job.output] ++
  job.name.toList.map (stringLine "name" (by decide))

/-- The section of a job. -/
def block (job : Job) : Block where
  element := true
  key := "jobs"
  bare := by decide
  lines := job.lines
  distinct := by cases h : job.name <;> simp [lines, stringLine, h]

theorem write_block (job : Job) :
    job.block.write = "[[jobs]]\n".toList ++ writeLines job.lines := by
  simp [Block.write, Block.header, block]

theorem write_eq (job : Job) : job.write = '\n' :: job.block.write := by
  have hmodule : "\n[[jobs]]\nmodule = ".toList =
      '\n' :: ("[[jobs]]\n".toList ++ ("module".toList ++ [' ', '=', ' '])) := by decide
  have hdescription : "\ndescription = ".toList =
      '\n' :: ("description".toList ++ [' ', '=', ' ']) := by decide
  have houtput : "\noutput = ".toList = '\n' :: ("output".toList ++ [' ', '=', ' ']) := by decide
  have hname : "\nname = ".toList = '\n' :: ("name".toList ++ [' ', '=', ' ']) := by decide
  rw [write_block]
  unfold write lines
  cases job.name with
  | none =>
    simp only [writeLines, Toml.Line.write, stringLine, hmodule, hdescription, houtput,
      List.append_assoc, List.cons_append, List.nil_append, List.flatMap_cons, List.flatMap_nil,
      Option.toList, List.map_nil]
  | some name =>
    simp only [writeLines, Toml.Line.write, stringLine, hmodule, hdescription, houtput, hname,
      List.append_assoc, List.cons_append, List.nil_append, List.flatMap_cons, List.flatMap_nil,
      Option.toList, List.map_cons, List.map_nil]

end Job

namespace Config

/-- The line of a list of jobs that is empty; other jobs are in sections of their own. -/
def lines (config : Config) : List Toml.Line :=
  if config.jobs.isEmpty then
    [⟨"jobs", _, .list [], by decide, .strings []⟩]
  else []

theorem write_eq (config : Config) :
    config.write = String.ofList
      (writeDocument config.lines (config.format.block :: config.jobs.map Job.block)) := by
  have hjobs : config.jobs.flatMap Job.write = spaceBlocks (config.jobs.map Job.block) := by
    rw [spaceBlocks, List.flatMap_map]
    exact List.flatMap_congr fun job _ ↦ job.write_eq
  rw [write, hjobs, ← Formatter.write_block, lines]
  cases hempty : config.jobs with
  | nil =>
    simp [writeDocument, spaceBlocks, writeLines, Toml.Line.write, writeStrings]
  | cons job jobs => rfl

/-- What the text of a configuration is read as has the table of the formatter and the list of the
tables of the jobs, which comes from a line of its own or from the sections behind the formatter. -/
theorem addSections_blocks (config : Config) :
    ∃ root, addSections (entriesOf config.lines)
        ((config.format.block :: config.jobs.map Job.block).map Block.toSection) = some root ∧
      (toEntries root).lookup "format" = some (.table (toEntries (entriesOf config.format.lines))) ∧
      (toEntries root).lookup "jobs" =
        some (.list (config.jobs.map fun job ↦ .table (toEntries (entriesOf job.lines)))) := by
  have hformat : ∀ root : Entries, root.lookup "format" = none →
      config.format.block.toSection.addTo root =
        some (root ++ [("format", .table .opened (entriesOf config.format.lines))]) :=
    fun root hroot ↦ Block.addTo_table rfl hroot
  rw [List.map_cons, lines]
  cases config.jobs with
  | nil =>
    rw [List.isEmpty_nil, if_pos rfl, addSections_cons _ (hformat _ rfl)]
    exact ⟨_, rfl, rfl, rfl⟩
  | cons job jobs =>
    have hfirst : job.block.toSection.addTo
        [("format", .table .opened (entriesOf config.format.lines))] =
          some [("format", .table .opened (entriesOf config.format.lines)),
            ("jobs", .tables [entriesOf job.lines])] :=
      Block.addTo_first rfl rfl
    have hblocks : ((jobs.map Job.block).map fun block : Block ↦ entriesOf block.lines) =
        (jobs.map Job.lines).map entriesOf := by
      rw [List.map_map, List.map_map]
      rfl
    have hlater : addSections ([("format", .table .opened (entriesOf config.format.lines))] ++
        [("jobs", .tables [entriesOf job.lines])]) ((jobs.map Job.block).map Block.toSection) =
          some ([("format", .table .opened (entriesOf config.format.lines))] ++
            [("jobs", .tables ([entriesOf job.lines] ++ (jobs.map Job.lines).map entriesOf))]) := by
      rw [← hblocks]
      exact addSections_elements rfl _ (by simp [Job.block]) _
    have helements : toElements (entriesOf job.lines :: (jobs.map Job.lines).map entriesOf) =
        (job :: jobs).map fun job ↦ .table (toEntries (entriesOf job.lines)) := by
      have htables := toElements_map ((job :: jobs).map Job.lines)
      simpa only [List.map_cons, List.map_map, Function.comp_def] using htables
    rw [List.isEmpty_cons, if_neg (by simp), addSections_cons _ (hformat _ rfl), List.map_cons,
      List.map_cons]
    refine ⟨_, (addSections_cons _ hfirst).trans hlater, rfl, ?_⟩
    rw [← helements]
    rfl

theorem ofValue?_format (formatter : Formatter) :
    Formatter.ofValue? (.table (toEntries (entriesOf formatter.lines))) = some formatter := by
  have htexts : ∀ items : List String, (items.map Value.text).mapM Value.text? = some items := by
    intro items
    induction items with
    | nil => rfl
    | cons item items ih => simp [List.mapM_cons, Value.text?, ih]
  rw [toEntries_entriesOf]
  simp [Formatter.lines, Formatter.ofValue?, Formatter.ofValues?, stringLine, List.lookup_cons,
    orDefault, Value.boolean?, Value.text?, Value.texts?, Value.list?, htexts]

theorem ofValue?_job (job : Job) :
    Job.ofValue? (.table (toEntries (entriesOf job.lines))) = some job := by
  rw [toEntries_entriesOf]
  obtain ⟨module, description, output, name⟩ := job
  cases name <;>
    simp [Job.lines, Job.ofValue?, Job.ofValues?, stringLine, List.lookup_cons, Job.keys,
      Value.text?]

/-- A configuration is read back from the text that is written for it. -/
theorem parse?_write (config : Config) : parse? config.write = some config := by
  have hdistinct : (config.lines.map Toml.Line.key).Nodup := by
    rw [lines]
    split_ifs <;> simp
  obtain ⟨root, hroot, hformat, hjobs⟩ := config.addSections_blocks
  have hmapM : (config.jobs.map fun job ↦
      Value.table (toEntries (entriesOf job.lines))).mapM Job.ofValue? = some config.jobs := by
    induction config.jobs with
    | nil => rfl
    | cons job jobs ih => simp [List.mapM_cons, ofValue?_job, ih]
  rw [parse?, write_eq, parse?_writeDocument _ _ _ hdistinct, hroot]
  simp [ofEntries?, hformat, hjobs, orDefault, ofValue?_format, Value.list?, hmapM]

/-- A saved configuration is loaded from the path that it was saved to, unless the path leads to a
device. -/
theorem load_of_save {config : Config} {tree after : FileTree} {path : String}
    (hsave : config.save tree path = (after, .ok ()))
    (hdevice : ∀ place device, after.find path ≠ .ok (place, .device device)) :
    load after path = .ok config := by
  obtain ⟨prepared, hoverwrite⟩ : ∃ prepared : FileTree,
      prepared.overwrite path (.text config.write) = .ok after := by
    unfold save at hsave
    simp only at hsave
    split at hsave
    · simp at hsave
    · split at hsave
      · simp at hsave
      · rename_i written hwritten
        rw [Prod.mk.injEq] at hsave
        exact ⟨_, hsave.1 ▸ hwritten⟩
  obtain ⟨place, hfile | ⟨device, hfind⟩⟩ := FileTree.find_of_overwrite hoverwrite
  · have hread : after.readText path = .ok config.write := by
      rw [FileTree.readText, hfile]
      rfl
    rw [load, hread]
    simp only [parse?_write]
  · exact absurd hfind (hdevice place device)

/-- A configuration whose strings take four notations, without jobs. -/
def quotedConfig : Config := ⟨⟨false, "it's \"v\"", ["a\\b", "line\nnext\x01", ""]⟩, []⟩

theorem load_of_save_quotedConfig :
    ∃ after, quotedConfig.save ⟨["work"], [(["work"], .directory)], []⟩ "nested/Raygen.toml" =
        (after, .ok ()) ∧
      load after "nested/Raygen.toml" = .ok quotedConfig := by
  have hsaved : (quotedConfig.save ⟨["work"], [(["work"], .directory)], []⟩
      "nested/Raygen.toml").2 = .ok () := by decide +kernel
  have hfile : ((quotedConfig.save ⟨["work"], [(["work"], .directory)], []⟩
      "nested/Raygen.toml").1.find "nested/Raygen.toml").map Prod.snd =
        .ok (.file (.text quotedConfig.write)) := by decide +kernel
  generalize hsave : quotedConfig.save ⟨["work"], [(["work"], .directory)], []⟩
    "nested/Raygen.toml" = outcome at hsaved hfile
  obtain ⟨after, result⟩ := outcome
  obtain rfl : result = .ok () := hsaved
  refine ⟨after, rfl, load_of_save hsave ?_⟩
  intro place device hfind
  rw [hfind] at hfile
  exact absurd hfile (by simp [Except.map])

/-- A device takes the text of a configuration without jobs and reads as empty, which stands for the
standard configuration. -/
theorem load_of_save_null : ¬∀ (config : Config) (tree after : FileTree) (path : String),
    config.save tree path = (after, .ok ()) → load after path = .ok config := by
  intro hall
  have hload := hall quotedConfig (.initial ["work"] []) (.initial ["work"] []) "/dev/null"
    (Prod.ext (by rfl) (by decide +kernel))
  exact absurd hload (by decide +kernel)

end Config

end Bindery
