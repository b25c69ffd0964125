import Bindery.CommandLine
import Bindery.Proofs.Binding.Passing
import Bindery.Proofs.Identifier.Snake

/-!
# Looking up what a type becomes

The command that looks up a type answers with the raw type that a parameter of the type has in the
binding of a function without a result, or fails with the fault of that binding (`mapType_eq`,
`ofFunction_procedure`). The function matters by its snake case alone, which is idempotent, so that it
may be given by its name in C or by its name in the bindings (`mapType_either_name`).
-/

set_option autoImplicit false
set_option relaxedAutoImplicit false

namespace Bindery

open CType Identifier

/-- A function without a result that has one parameter. -/
def Interface.Function.procedure (name : String) (param : Interface.Param) (description : String) :
    Function :=
  ⟨name, "void", [param], description⟩

/-- The binding of such a function comes down to the type of the parameter. -/
theorem Binding.ofFunction_procedure (variadics : List (String × String)) (name : String)
    (param : Interface.Param) (description : String) :
    ofFunction variadics (.procedure name param description) =
      (mapText variadics param.type (some (snakeCase name))).map fun rawType ↦
        ⟨name, snakeCase name, [⟨snakeCase param.name, rawType, .ofRaw rawType⟩], "", .nothing,
          description⟩ := by
  have hreturn : mapText variadics "void" none = .ok "" := rfl
  rw [ofFunction, Interface.Function.procedure, hreturn]
  simp only [List.mapM_cons, List.mapM_nil, Param.ofParam]
  cases mapText variadics param.type (some (snakeCase name)) with
  | error fault => rfl
  | ok rawType => rfl

namespace CommandLine

/-- What is shown for a raw type. -/
def shownType (rawType : String) : String := if rawType = "" then "(none)" else rawType

theorem mapType_eq {profile : Profile} {module : String}
    (hprofile : Profile.named module = .ok profile) (descriptor : String)
    (function : Option String) :
    mapType descriptor function module =
      (mapText profile.variadics descriptor (function.map snakeCase)).map fun rawType ↦
        shownType rawType ++ "\n" := by
  rw [mapType, hprofile]
  change (mapText profile.variadics descriptor (function.map snakeCase) >>= fun target ↦
    pure (if target = "" then "(none)\n" else target ++ "\n")) = _
  cases mapText profile.variadics descriptor (function.map snakeCase) with
  | error fault => rfl
  | ok rawType =>
    change Except.ok (if rawType = "" then "(none)\n" else rawType ++ "\n") =
      Except.ok (shownType rawType ++ "\n")
    unfold shownType
    split_ifs
    · rfl
    · rfl

/-- Snake case is idempotent, so that the function may be given by its name in C or by its name in
the bindings. Under a built-in profile the answer is the raw type of the parameter of a function
without a result, or the fault for which that function has no binding. -/
theorem mapType_either_name (programs : Programs) (verbose : Bool) (config : Option String)
    (tree : FileTree) {module : String} {profile : Profile}
    (hprofile : Profile.named module = .ok profile) (function descriptor name description : String) :
    snakeCase (snakeCase function) = snakeCase function ∧
      run programs ⟨verbose, config, .mapType descriptor (some (snakeCase function)) module⟩ tree =
        run programs ⟨verbose, config, .mapType descriptor (some function) module⟩ tree ∧
      (∀ binding, Binding.ofFunction profile.variadics
          (.procedure function ⟨name, descriptor⟩ description) = .ok binding →
        ∃ bound, binding.params = [bound] ∧
          run programs ⟨verbose, config, .mapType descriptor (some function) module⟩ tree =
            ⟨tree, shownType bound.rawType ++ "\n", [], none⟩) ∧
      ∀ fault, Binding.ofFunction profile.variadics
          (.procedure function ⟨name, descriptor⟩ description) = .error fault →
        run programs ⟨verbose, config, .mapType descriptor (some function) module⟩ tree =
          ⟨tree, "", [], some (.fault fault)⟩ := by
  have hrun : ∀ spelling, run programs ⟨verbose, config, .mapType descriptor (some spelling) module⟩
      tree = answer tree ((mapText profile.variadics descriptor (some (snakeCase spelling))).map
        fun rawType ↦ shownType rawType ++ "\n") :=
    fun spelling ↦ congrArg (answer tree) (mapType_eq hprofile descriptor (some spelling))
  rw [hrun, hrun, snakeCase_snakeCase, Binding.ofFunction_procedure]
  refine ⟨rfl, rfl, ?_⟩
  cases mapText profile.variadics descriptor (some (snakeCase function)) with
  | error fault =>
    refine ⟨fun binding h ↦ (nomatch h), fun other h ↦ ?_⟩
    rw [← Except.error.inj h]
    rfl
  | ok rawType =>
    refine ⟨fun binding h ↦ ?_, fun other h ↦ (nomatch h)⟩
    rw [← Except.ok.inj h]
    exact ⟨_, rfl, rfl⟩

/-- A variadic type is found under the name in the bindings. -/
theorem mapType_either_name_traceLog :
    run (fun _ ↦ none) ⟨false, none, .mapType "..." (some "trace_log") "raymath"⟩
        ⟨["work"], [(["work"], .directory)], []⟩ =
      ⟨⟨["work"], [(["work"], .directory)], []⟩, "...TraceLogLevel\n", [], none⟩ := by
  have hprofile : Profile.named "raymath" = .ok .raymath := rfl
  obtain ⟨-, hsame, hbinding, -⟩ := mapType_either_name (fun _ ↦ none) false none
    ⟨["work"], [(["work"], .directory)], []⟩ hprofile "TraceLog" "..." "args" ""
  obtain ⟨bound, hparams, hrun⟩ := hbinding _ rfl
  rw [← List.head_eq_of_cons_eq hparams] at hrun
  exact hsame.trans hrun

end CommandLine

end Bindery
