import Bindery.Proofs.Emission.Itemwise

/-!
# When a module cannot be emitted

What can go wrong with a module are the texts of C types. `Interface.checks` lists what a module
requires of them, in the order in which it looks: the items it declares one after the other, in a
callback the parameters before the return type, in a function the return type first. A module is
emitted exactly when all checks pass, and otherwise fails with the fault of the first that does not
(`emit_error_iff_first_check`).
-/

set_option autoImplicit false
set_option relaxedAutoImplicit false

namespace Bindery

open Traversal

/-- A requirement on the text of a C type. -/
inductive Check
  /-- The text has a type in the bindings, as part of a function if there is one. -/
  | mapped (text : String) (function : Option String)
  /-- The alias names a type without pointers and dimensions. -/
  | plain (definition : Interface.Alias)

namespace Check

/-- Why a requirement is not met. Only a variadic parameter asks for the function it stands in. -/
def fault (profile : Profile) : Check → Option Fault
  | .mapped text function =>
    if Text.trim text.toList = CType.variadicMark then
      if (profile.variadics.lookup (function.getD "")).isSome then none
      else some (.unresolvedVariadic (function.getD ""))
    else match CType.parse text with
      | .ok _ => none
      | .error flaw => some (.malformedType text flaw.message)
  | .plain definition =>
    match CType.parse definition.type with
    | .ok type =>
      if type.pointers = 0 ∧ type.dimensions = [] then none
      else some (.malformedType definition.type
        ("alias `" ++ definition.name ++ "` must name a plain type"))
    | .error flaw => some (.malformedType definition.type flaw.message)

end Check

/-- What a module requires of an item that it declares, in the order in which it looks. -/
def Item.checks : Item → List Check
  | .struct s => s.fields.map fun field ↦ .mapped field.type none
  | .typeAlias a => [.plain a]
  | .callback c =>
    c.params.map (fun param ↦ .mapped param.type (some (Identifier.snakeCase c.name))) ++
      [.mapped c.returnType none]
  | .enum _ => []
  | .function f =>
    .mapped f.returnType none ::
      f.params.map fun param ↦ .mapped param.type (some (Identifier.snakeCase f.name))

/-- What a module requires of an interface. -/
def Interface.checks (profile : Profile) (interface : Interface) : List Check :=
  (interface.declared profile).flatMap Item.checks

/-! ### Checks of one text -/

theorem error?_mapText (profile : Profile) (text : String) (function : Option String) :
    error? (CType.mapText profile.variadics text function) =
      (Check.mapped text function).fault profile := by
  rw [CType.mapText, Check.fault]
  split_ifs with hvariadic hknown
  · obtain ⟨target, htarget⟩ := Option.isSome_iff_exists.mp hknown
    simp [CType.resolveVariadic, htarget]
  · have hnone := Option.not_isSome_iff_eq_none.mp hknown
    simp [CType.resolveVariadic, hnone]
  · rw [CType.ofText]
    cases CType.parse text <;> rfl

theorem error?_aliasTarget (profile : Profile) (definition : Interface.Alias) :
    error? (Emission.aliasTarget definition) = (Check.plain definition).fault profile := by
  rw [Emission.aliasTarget, CType.ofText, Check.fault]
  cases CType.parse definition.type with
  | error flaw => rfl
  | ok type =>
    change error? (if _ then _ else _) = if _ then _ else _
    by_cases hplain : type.pointers = 0 ∧ type.dimensions = []
    · rw [if_pos hplain, if_neg (by simp [hplain])]
      rfl
    · have hflaw : (decide (type.pointers > 0) || !type.dimensions.isEmpty) = true := by
        by_contra h
        simp only [Bool.or_eq_true, decide_eq_true_eq, Bool.not_eq_true', not_or,
          Bool.not_eq_false, List.isEmpty_iff] at h
        exact hplain ⟨by omega, h.2⟩
      rw [if_neg hplain, if_pos hflaw]
      rfl

/-! ### Checks of one item -/

variable (profile : Profile)

theorem error?_structLines (s : Interface.Struct) :
    error? (Emission.structLines profile s) =
      (Item.struct s).checks.findSome? (Check.fault profile) := by
  rw [Emission.structLines, error?_bind_pure, Item.checks]
  refine error?_mapM_of_error? (fun field ↦ ?_) s.fields
  rw [Emission.fieldLines, error?_bind_pure, error?_mapText]

theorem error?_aliasLines (a : Interface.Alias) :
    error? (Emission.aliasLines profile a) =
      (Item.typeAlias a).checks.findSome? (Check.fault profile) := by
  rw [Emission.aliasLines, error?_bind_pure, error?_aliasTarget profile,
    Item.checks, List.findSome?_singleton]

theorem error?_callbackLines (c : Interface.Callback) :
    error? (Emission.callbackLines profile c) =
      (Item.callback c).checks.findSome? (Check.fault profile) := by
  have hparams : error? (c.params.mapM (Emission.callbackParam profile c.name)) =
      (c.params.map fun param ↦ Check.mapped param.type
        (some (Identifier.snakeCase c.name))).findSome? (Check.fault profile) := by
    refine error?_mapM_of_error? (fun param ↦ ?_) c.params
    rw [Emission.callbackParam, error?_bind_pure, error?_mapText]
  rw [Item.checks, List.findSome?_append, List.findSome?_singleton, ← hparams,
    Emission.callbackLines]
  exact error?_bind fun params ↦ (error?_bind_pure _ _).trans (error?_mapText profile _ none)

theorem error?_ofFunction (f : Interface.Function) :
    error? (Binding.ofFunction profile.variadics f) =
      (Item.function f).checks.findSome? (Check.fault profile) := by
  have hparams : error? (f.params.mapM
      (Binding.Param.ofParam profile.variadics (Identifier.snakeCase f.name))) =
      (f.params.map fun param ↦ Check.mapped param.type
        (some (Identifier.snakeCase f.name))).findSome? (Check.fault profile) := by
    refine error?_mapM_of_error? (fun param ↦ ?_) f.params
    rw [Binding.Param.ofParam, error?_bind_pure, error?_mapText]
  rw [Item.checks, ← List.singleton_append, List.findSome?_append, List.findSome?_singleton,
    ← hparams, ← error?_mapText, Binding.ofFunction]
  exact error?_bind fun rawReturn ↦ error?_bind_pure _ _

/-- The text of an item fails as the first of its checks that does not pass. -/
theorem error?_text (item : Item) :
    error? (item.text profile) = item.checks.findSome? (Check.fault profile) := by
  rw [Item.text, error?_map]
  cases item with
  | struct s => exact error?_structLines profile s
  | typeAlias a => exact error?_aliasLines profile a
  | callback c => exact error?_callbackLines profile c
  | enum e => rfl
  | function f => exact (error?_map _ _).trans (error?_ofFunction profile f)

/-! ### The whole module -/

/-- A module fails as the first of the checks of its interface that does not pass. -/
theorem error?_emit (name : String) (interface : Interface) :
    error? (emit profile name interface) =
      (interface.checks profile).findSome? (Check.fault profile) := by
  rw [emit_eq_mapM, error?_map, error?_mapM, Interface.checks, findSome?_flatMap]
  simp only [error?_text]

/-- A module is emitted exactly when every check of its interface passes; otherwise it fails with
the fault of the first check that does not. A check of a mapped text passes exactly when the text
has a type in the bindings. -/
theorem emit_error_iff_first_check (name : String) (interface : Interface) :
    ((∃ emission, emit profile name interface = .ok emission) ↔
      ∀ check ∈ interface.checks profile, check.fault profile = none) ∧
    (∀ fault, emit profile name interface = .error fault ↔
      ∃ before check after, interface.checks profile = before ++ check :: after ∧
        (∀ earlier ∈ before, earlier.fault profile = none) ∧
        check.fault profile = some fault) ∧
    ∀ text function, (Check.mapped text function).fault profile =
      error? (CType.mapText profile.variadics text function) := by
  refine ⟨?_, fun fault ↦ ?_, fun text function ↦ (error?_mapText profile text function).symm⟩
  · rw [← error?_eq_none_iff, error?_emit, List.findSome?_eq_none_iff]
  · rw [← error?_eq_some_iff, error?_emit, List.findSome?_eq_some_iff]
    constructor
    · rintro ⟨before, check, after, hsplit, hfault, hbefore⟩
      exact ⟨before, check, after, hsplit, hbefore, hfault⟩
    · rintro ⟨before, check, after, hsplit, hbefore, hfault⟩
      exact ⟨before, check, after, hsplit, hfault, hbefore⟩

end Bindery
