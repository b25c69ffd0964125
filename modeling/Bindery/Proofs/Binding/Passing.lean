import Bindery.Proofs.CType.Shape

/-!
# Which parameters are strings

A binding passes a parameter by its raw type: bytes behind one pointer as a `string`, a variadic
list spread, everything else directly. `text_iff_bytePointer` traces this back to the C types, of
which three are written as bytes behind one pointer (`target_eq_rawText_iff`): `char *` is one of
them, but so is `unsigned char *`, which holds any bytes and not a text (`text_of_unsigned_char`).
-/

set_option autoImplicit false
set_option relaxedAutoImplicit false

namespace Bindery

open Text Traversal CType

namespace CType

/-- One pointer to a base type, with or without `const`, and no dimensions. -/
def IsPointerTo (base : String) (type : CType) : Prop :=
  type.base = base ∧ type.pointers = 1 ∧ type.dimensions = []

/-- One pointer to a base type that the bindings write as a byte. -/
def IsBytePointer (type : CType) : Prop :=
  type.IsPointerTo "char" ∨ type.IsPointerTo "unsigned char" ∨ type.IsPointerTo "u8"

/-! ### Bytes and variadic lists among the types -/

theorem baseName_eq_byte_iff {base : String} :
    baseName base = "u8" ↔ base = "char" ∨ base = "unsigned char" ∨ base = "u8" := by
  have htable : ∀ entry ∈ baseNames, entry.2 = "u8" →
      entry.1 = "char" ∨ entry.1 = "unsigned char" := by decide
  constructor
  · intro hbyte
    rcases baseName_cases base with hentry | ⟨-, hsame⟩
    · exact (htable _ hentry hbyte).imp_right .inl
    · exact .inr (.inr (hsame.symm.trans hbyte))
  · rintro (rfl | rfl | rfl)
    · rfl
    · rfl
    · rfl

/-- The types that are written as `char *` is. -/
theorem target_eq_rawText_iff {type : CType} (htype : type.WellFormed) :
    type.target = Binding.rawText ↔ type.IsBytePointer := by
  constructor
  · intro htarget
    have hpointer : type.isVoidPointer = false := by
      by_contra hvoid
      rw [target, if_pos (by simpa using hvoid)] at htarget
      exact absurd htarget (by decide)
    have hpointers := count_mark_target htype hpointer
    have hdimensions := count_bracket_target htype hpointer
    rw [htarget] at hpointers hdimensions
    have hone : type.pointers = 1 := hpointers.symm
    have hnil : type.dimensions = [] := List.length_eq_zero_iff.mp hdimensions.symm
    have hname : baseName type.base = "u8" := by
      rw [target_eq hpointer, hone, hnil] at htarget
      exact (String.append_right_inj "&").mp htarget
    rcases baseName_eq_byte_iff.mp hname with hbase | hbase | hbase
    · exact .inl ⟨hbase, hone, hnil⟩
    · exact .inr (.inl ⟨hbase, hone, hnil⟩)
    · exact .inr (.inr ⟨hbase, hone, hnil⟩)
  · have hbyte : ∀ base, baseName base = "u8" → base ≠ "void" → type.IsPointerTo base →
        type.target = Binding.rawText := by
      rintro base hname hvoid ⟨hbase, hone, hnil⟩
      have hpointer : type.isVoidPointer = false := by simp [isVoidPointer, hbase, hvoid]
      rw [target_eq hpointer, hbase, hname, hone, hnil]
      rfl
    rintro (h | h | h)
    · exact hbyte "char" rfl (by decide) h
    · exact hbyte "unsigned char" rfl (by decide) h
    · exact hbyte "u8" rfl (by decide) h

/-- No type that is read starts like a variadic list. -/
theorem isVariadic_target {type : CType} (htype : type.WellFormed) :
    isVariadic type.target = false := by
  have hhead := head?_target htype
  rw [isVariadic, variadicMark]
  cases htarget : type.target.toList with
  | nil => rfl
  | cons c rest =>
    have hdot : '.' ≠ c := by
      rintro rfl
      rw [htarget] at hhead
      rcases hhead '.' rfl with h | h
      · exact nomatch h
      · exact absurd h (by decide)
    simp [List.isPrefixOf, hdot]

/-! ### Variadic types of built-in profiles -/

theorem variadics_of_mem_builtin :
    ∀ {profile : Profile}, profile ∈ Profile.builtin →
      profile.variadics = Profile.libraryVariadics := by
  decide

theorem typeText_of_mem_variadics {profile : Profile} (hprofile : profile ∈ Profile.builtin) :
    ∀ entry ∈ profile.variadics, TypeText entry.2 := by
  rw [variadics_of_mem_builtin hprofile]
  decide

/-- Under a built-in profile, every text becomes one of words and the marks of types. -/
theorem typeText_of_builtin {profile : Profile} (hprofile : profile ∈ Profile.builtin)
    {text target : String} {function : Option String}
    (h : mapText profile.variadics text function = .ok target) : TypeText target :=
  typeText_of_mapText (typeText_of_mem_variadics hprofile) h

end CType

namespace Binding

/-! ### Bindings in terms of types -/

/-- The binding of a parameter has the type that its text becomes, and is passed accordingly. -/
def Binds (variadics : List (String × String)) (function : String) (param : Interface.Param)
    (bound : Param) : Prop :=
  ∃ rawType, mapText variadics param.type (some function) = .ok rawType ∧
    bound = ⟨Identifier.snakeCase param.name, rawType, .ofRaw rawType⟩

/-- The parts of a binding. -/
theorem ofFunction_eq_ok_iff {variadics : List (String × String)} {f : Interface.Function}
    {binding : Binding} :
    ofFunction variadics f = .ok binding ↔ ∃ rawReturn params,
      mapText variadics f.returnType none = .ok rawReturn ∧
      List.Forall₂ (Binds variadics (Identifier.snakeCase f.name)) f.params params ∧
      binding = ⟨f.name, Identifier.snakeCase f.name, params, rawReturn, .ofRaw rawReturn,
        f.description⟩ := by
  have hparam : ∀ param bound,
      Param.ofParam variadics (Identifier.snakeCase f.name) param = .ok bound ↔
        Binds variadics (Identifier.snakeCase f.name) param bound := by
    intro param bound
    rw [Param.ofParam, bind_eq_ok_iff]
    refine exists_congr fun rawType ↦ and_congr_right fun _ ↦ ?_
    exact ⟨fun h ↦ (Except.ok.inj h).symm, fun h ↦ congrArg Except.ok h.symm⟩
  rw [ofFunction, bind_eq_ok_iff]
  refine exists_congr fun rawReturn ↦ ?_
  rw [bind_eq_ok_iff]
  constructor
  · rintro ⟨hreturn, params, hparams, h⟩
    refine ⟨params, hreturn, ?_, (Except.ok.inj h).symm⟩
    exact (mapM_eq_ok_iff.mp hparams).imp fun param bound ↦ (hparam param bound).mp
  · rintro ⟨params, hreturn, hparams, rfl⟩
    refine ⟨hreturn, params, mapM_eq_ok_iff.mpr ?_, rfl⟩
    exact hparams.imp fun param bound ↦ (hparam param bound).mpr

/-- The built-in profiles know a variadic type only for a function, and spread it. -/
theorem passing_of_mem_variadics {profile : Profile} (hprofile : profile ∈ Profile.builtin) :
    ∀ entry ∈ profile.variadics, entry.1 ≠ "" ∧ Passing.ofRaw entry.2 = .spread := by
  rw [variadics_of_mem_builtin hprofile]
  decide

/-- A text that is mapped without a function is that of a type. -/
theorem mapText_none {profile : Profile} (hprofile : profile ∈ Profile.builtin)
    {text target : String} (h : mapText profile.variadics text none = .ok target) :
    trim text.toList ≠ variadicMark := by
  intro htext
  rw [mapText, if_pos htext, resolveVariadic, Option.getD_none] at h
  split at h
  · next found hfound =>
    exact (passing_of_mem_variadics hprofile _ (mem_of_lookup hfound)).1 rfl
  · cases h

/-! ### Strings -/

/-- How a parameter is passed under a built-in profile. The variadic list is spread; of the other
types none is, and those that are passed as strings are the pointers to bytes. -/
theorem passing_of_binds {profile : Profile} (hprofile : profile ∈ Profile.builtin)
    {function : String} {param : Interface.Param} {bound : Param}
    (h : Binds profile.variadics function param bound) :
    (trim param.type.toList = variadicMark ∧ bound.passing = .spread) ∨
      trim param.type.toList ≠ variadicMark ∧ bound.passing ≠ .spread ∧
        ∃ type, ofText param.type = .ok type ∧ (bound.passing = .text ↔ type.IsBytePointer) := by
  obtain ⟨rawType, hraw, rfl⟩ := h
  by_cases htext : trim param.type.toList = variadicMark
  · rw [mapText, if_pos htext] at hraw
    obtain ⟨name, hname⟩ := exists_mem_of_resolveVariadic hraw
    exact .inl ⟨htext, (passing_of_mem_variadics hprofile _ hname).2⟩
  · obtain ⟨type, htype, rfl⟩ := (mapText_eq_ok_iff htext).mp hraw
    have hwell := wellFormed_of_ofText htype
    have hpassing : Passing.ofRaw type.target =
        if type.target = rawText then .text else .direct := by
      rw [Passing.ofRaw, isVariadic_target hwell]
      rfl
    refine .inr ⟨htext, ?_, type, htype, ?_⟩
    · change Passing.ofRaw type.target ≠ .spread
      rw [hpassing]
      split_ifs
      · decide
      · decide
    · change Passing.ofRaw type.target = .text ↔ _
      rw [hpassing, ← target_eq_rawText_iff hwell]
      split_ifs with hbytes
      · exact iff_of_true rfl hbytes
      · exact iff_of_false (by decide) hbytes

/-- Under a built-in profile, a parameter that is not variadic is passed as a string exactly if it
is a pointer to `char`, `unsigned char` or `u8`, and a value is returned as a string exactly if its
type is one of these; only variadic parameters are spread. -/
theorem text_iff_bytePointer {profile : Profile} (hprofile : profile ∈ Profile.builtin)
    {f : Interface.Function} {binding : Binding}
    (h : Binding.ofFunction profile.variadics f = .ok binding) :
    List.Forall₂ (fun param bound ↦
        (trim param.type.toList = variadicMark ∧ bound.passing = .spread) ∨
          trim param.type.toList ≠ variadicMark ∧ bound.passing ≠ .spread ∧
            ∃ type, ofText param.type = .ok type ∧
              (bound.passing = .text ↔ type.IsBytePointer))
        f.params binding.params ∧
      ∃ type, ofText f.returnType = .ok type ∧
        (binding.returning = .text ↔ type.IsBytePointer) := by
  obtain ⟨rawReturn, params, hreturn, hparams, rfl⟩ := ofFunction_eq_ok_iff.mp h
  refine ⟨hparams.imp fun param bound ↦ passing_of_binds hprofile, ?_⟩
  obtain ⟨type, htype, rfl⟩ := (mapText_eq_ok_iff (mapText_none hprofile hreturn)).mp hreturn
  have hwell := wellFormed_of_ofText htype
  refine ⟨type, htype, ?_⟩
  rw [← target_eq_rawText_iff hwell]
  change Returning.ofRaw type.target = .text ↔ _
  unfold Returning.ofRaw
  split_ifs with hnone hbytes
  · exact iff_of_false (by decide) (hnone ▸ by decide)
  · exact iff_of_true rfl hbytes
  · exact iff_of_false (by decide) hbytes

/-- A function that takes a number, a string and a variadic list, and returns a string. -/
def traceLog : Interface.Function :=
  ⟨"TraceLog", "const char *", [⟨"logLevel", "int"⟩, ⟨"text", "char *"⟩, ⟨"args", "..."⟩], ""⟩

theorem text_iff_bytePointer_traceLog : ∃ binding,
    Binding.ofFunction Profile.raylib.variadics traceLog = .ok binding ∧
      binding.params.map (·.passing) = [.direct, .text, .spread] ∧ binding.returning = .text := by
  have hsome : ∃ binding, Binding.ofFunction Profile.raylib.variadics traceLog = .ok binding ∧
      binding.params.map (·.passing) = [.direct, .text, .spread] := ⟨_, rfl, by decide⟩
  obtain ⟨binding, hbinding, hpassing⟩ := hsome
  have htype : ofText "const char *" = .ok ⟨"char", true, 1, []⟩ := rfl
  obtain ⟨-, type, hread, hreturn⟩ := text_iff_bytePointer (by decide) hbinding
  cases htype.symm.trans hread
  exact ⟨binding, hbinding, hpassing, hreturn.mpr (.inl ⟨rfl, rfl, rfl⟩)⟩

/-- Bytes that are no text are taken for one. A buffer of `unsigned char` is passed and returned as
a string. -/
theorem text_of_unsigned_char : ∃ binding,
    Binding.ofFunction Profile.raylib.variadics
        ⟨"SwapPixels", "unsigned char *", [⟨"pixels", "const unsigned char *"⟩], ""⟩ =
      .ok binding ∧
      binding.params.map (·.passing) = [.text] ∧ binding.returning = .text ∧
      ofText "const unsigned char *" = .ok ⟨"unsigned char", true, 1, []⟩ :=
  ⟨_, rfl, by decide, by decide, by decide⟩

end Binding

end Bindery
