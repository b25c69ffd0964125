import Bindery.Generation
import Bindery.Proofs.FileTree.Writing

/-!
# A run is all or nothing

A run without a formatter ends in one of four ways (`generate_cases`): the description cannot be
loaded, the module cannot be emitted, the output cannot be written, or it is. So a run that succeeds
has replaced its output by the source of the module and made the directories above it, and a run
that fails has changed no file (`generate_all_or_nothing`).
-/

set_option autoImplicit false
set_option relaxedAutoImplicit false

namespace Bindery

open Traversal FileTree

/-- A text that can be read stands where a path leads. -/
theorem exists?_of_readText {tree : FileTree} {path document : String}
    (h : tree.readText path = .ok document) : tree.exists? path = true := by
  rw [readText, bind_eq_ok_iff] at h
  obtain ⟨found, hfind, -⟩ := h
  rw [exists?, hfind]
  rfl

theorem Interface.load_eq_ok_iff {tree : FileTree} {path : String} {interface : Interface} :
    Interface.load tree path = .ok interface ↔
      ∃ document, tree.readText path = .ok document ∧
        Interface.read document = .ok interface := by
  unfold Interface.load
  constructor
  · intro h
    split at h
    · split at h
      · exact nomatch h
      · rename_i document hdocument
        refine ⟨document, hdocument, ?_⟩
        cases hread : Interface.read document with
        | ok read =>
          rw [hread] at h
          exact congrArg _ (Except.ok.inj h)
        | error problem =>
          rw [hread] at h
          exact nomatch h
    · exact nomatch h
  · rintro ⟨document, hdocument, hread⟩
    rw [if_pos (exists?_of_readText hdocument), hdocument]
    simp only
    rw [hread]
    rfl

/-- The ways in which a run without a formatter ends. -/
theorem generate_cases (programs : Programs) (profile : Profile) (name description output : String)
    (tree : FileTree) :
    let run := generate programs none profile name description output tree
    (∃ fault, Interface.load tree description = .error fault ∧ run.tree = tree ∧
      run.result = .error fault) ∨
    ∃ interface, Interface.load tree description = .ok interface ∧
      ((∃ fault, emit profile name interface = .error fault ∧ run.tree = tree ∧
        run.result = .error fault) ∨
      ∃ emission, emit profile name interface = .ok emission ∧
        run.tree = (tree.writeAtomic output (.text emission.source)).tree ∧
        run.result = match (tree.writeAtomic output (.text emission.source)).trouble with
          | some trouble => .error (.file output trouble)
          | none => .ok ⟨output, emission.summary, .skipped "formatting disabled"⟩) := by
  unfold generate
  simp only
  cases hload : Interface.load tree description with
  | error fault => exact .inl ⟨fault, rfl, rfl, rfl⟩
  | ok interface =>
    refine .inr ⟨interface, rfl, ?_⟩
    simp only
    cases hemit : emit profile name interface with
    | error fault => exact .inl ⟨fault, rfl, rfl, rfl⟩
    | ok emission =>
      refine .inr ⟨emission, rfl, ?_⟩
      simp only
      cases htrouble : (tree.writeAtomic output (.text emission.source)).trouble with
      | some trouble => exact ⟨rfl, rfl⟩
      | none => exact ⟨rfl, rfl⟩

/-- A run without a formatter that gives a report has written the source of the interface that the
description holds, made the directories that were missing above it, and changed nothing else. One
that fails has changed no file and made none; only directories may be new, on the way to the output
and for a fault of writing it. -/
theorem generate_all_or_nothing (programs : Programs) (profile : Profile)
    (name description output : String) (tree : FileTree) :
    let run := generate programs none profile name description output tree
    match run.result with
    | .ok report => ∃ document interface emission,
        tree.readText description = .ok document ∧ Interface.read document = .ok interface ∧
        emit profile name interface = .ok emission ∧
        report = ⟨output, emission.summary, .skipped "formatting disabled"⟩ ∧
        Written tree run.tree output (.text emission.source)
    | .error fault =>
        Grown tree run.tree (tree.waypoints (workDirectory output)) ∧
        (Interface.load tree description = .error fault ∨
          (∀ trouble, fault ≠ .file output trouble) → run.tree = tree) := by
  intro run
  rcases generate_cases programs profile name description output tree with
    ⟨fault, -, htree, hresult⟩ | ⟨interface, hload, ⟨fault, -, htree, hresult⟩ |
      ⟨emission, hemit, htree, hresult⟩⟩
  · simp only [run, htree, hresult]
    exact ⟨Grown.refl _ _, fun _ ↦ trivial⟩
  · simp only [run, htree, hresult]
    exact ⟨Grown.refl _ _, fun _ ↦ trivial⟩
  · simp only [run, htree, hresult]
    rcases writeAtomic_cases tree output (.text emission.source) with
      ⟨htrouble, hwritten⟩ | ⟨trouble, htrouble, hgrown⟩
    · obtain ⟨document, hdocument, hread⟩ := Interface.load_eq_ok_iff.mp hload
      simp only [htrouble]
      exact ⟨document, interface, emission, hdocument, hread, hemit, rfl, hwritten⟩
    · simp only [htrouble]
      refine ⟨hgrown, fun hcause ↦ ?_⟩
      rcases hcause with hfault | hother
      · exact absurd (hload.symm.trans hfault) (by simp)
      · exact absurd rfl (hother trouble)

end Bindery
