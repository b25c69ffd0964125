import Mathlib.Data.List.Forall2

/-!
# Lists of outcomes

A traversal `List.mapM` of outcomes stops at the first element that fails. `mapM_eq_ok_iff` says
when it succeeds, element by element, and `error?_mapM` with which error it fails. `error?` forgets
the value of an outcome, so that the order of the errors of a computation can be read off the order
of its parts (`error?_bind`).
-/

set_option autoImplicit false
set_option relaxedAutoImplicit false

namespace Bindery.Traversal

variable {ε α β γ : Type}

/-- The error of an outcome, `none` for a value. -/
def error? : Except ε α → Option ε
  | .ok _ => none
  | .error e => some e

@[simp] theorem error?_ok (a : α) : error? (.ok a : Except ε α) = none := rfl

@[simp] theorem error?_error (e : ε) : error? (.error e : Except ε α) = some e := rfl

theorem error?_eq_some_iff {r : Except ε α} {e : ε} : error? r = some e ↔ r = .error e := by
  cases r <;> simp

theorem error?_eq_none_iff {r : Except ε α} : error? r = none ↔ ∃ a, r = .ok a := by
  cases r <;> simp

@[simp] theorem error?_map (f : α → β) (r : Except ε α) : error? (r.map f) = error? r := by
  cases r <;> rfl

/-- The errors of two steps, of which the second fails in the same way whatever the first gives. -/
theorem error?_bind {r : Except ε α} {f : α → Except ε β} {later : Option ε}
    (hlater : ∀ a, error? (f a) = later) : error? (r >>= f) = (error? r).or later := by
  cases r with
  | ok a => exact hlater a
  | error e => rfl

@[simp] theorem error?_bind_pure (r : Except ε α) (f : α → β) :
    error? (r >>= fun a ↦ pure (f a)) = error? r := by
  cases r <;> rfl

/-- A traversal fails with the error of the first element that has one. -/
theorem error?_mapM (f : α → Except ε β) (l : List α) :
    error? (l.mapM f) = l.findSome? fun a ↦ error? (f a) := by
  induction l with
  | nil => rfl
  | cons a l ih =>
    have hrest : ∀ b, error? (l.mapM f >>= fun bs ↦ pure (b :: bs)) = error? (l.mapM f) := by
      intro b
      exact error?_bind_pure _ _
    rw [List.mapM_cons, error?_bind hrest, ih]
    cases hfirst : error? (f a) <;> simp [hfirst]

/-- The same for elements whose errors are those of something else they stand for. -/
theorem error?_mapM_of_error? {f : α → Except ε β} {g : γ → Option ε} {h : α → γ}
    (hf : ∀ a, error? (f a) = g (h a)) (l : List α) :
    error? (l.mapM f) = (l.map h).findSome? g := by
  rw [error?_mapM, List.findSome?_map]
  simp only [hf, Function.comp_def]

theorem bind_eq_ok_iff {r : Except ε α} {f : α → Except ε β} {b : β} :
    r >>= f = .ok b ↔ ∃ a, r = .ok a ∧ f a = .ok b := by
  cases r with
  | ok a => exact ⟨fun h ↦ ⟨a, rfl, h⟩, fun ⟨_, ha, hf⟩ ↦ Except.ok.inj ha ▸ hf⟩
  | error e => exact ⟨fun h ↦ (nomatch h), fun ⟨_, ha, _⟩ ↦ (nomatch ha)⟩

theorem map_eq_ok_iff {r : Except ε α} {f : α → β} {b : β} :
    r.map f = .ok b ↔ ∃ a, r = .ok a ∧ f a = b := by
  cases r with
  | ok a => exact ⟨fun h ↦ ⟨a, rfl, Except.ok.inj h⟩, fun ⟨_, ha, hf⟩ ↦ Except.ok.inj ha ▸ hf ▸ rfl⟩
  | error e => exact ⟨fun h ↦ (nomatch h), fun ⟨_, ha, _⟩ ↦ (nomatch ha)⟩

/-! ### Values without errors -/

theorem toOption_map (f : α → β) (r : Except ε α) :
    (r.map f).toOption = r.toOption.map f := by
  cases r <;> rfl

theorem toOption_bind (r : Except ε α) (f : α → Except ε β) :
    (r >>= f).toOption = r.toOption.bind fun a ↦ (f a).toOption := by
  cases r <;> rfl

theorem toOption_eq_some_iff {r : Except ε α} {a : α} : r.toOption = some a ↔ r = .ok a := by
  cases r with
  | ok b => exact ⟨fun h ↦ congrArg _ (Option.some.inj h), fun h ↦ congrArg _ (Except.ok.inj h)⟩
  | error e => exact ⟨fun h ↦ (nomatch h), fun h ↦ (nomatch h)⟩

theorem toOption_eq_none_iff {r : Except ε α} : r.toOption = none ↔ ∃ e, r = .error e := by
  cases r with
  | ok a => exact ⟨fun h ↦ (nomatch h), fun ⟨_, h⟩ ↦ (nomatch h)⟩
  | error e => exact ⟨fun _ ↦ ⟨e, rfl⟩, fun _ ↦ rfl⟩

/-! ### Traversals -/

theorem findSome?_flatMap (f : α → List β) (g : β → Option γ) (l : List α) :
    (l.flatMap f).findSome? g = l.findSome? fun a ↦ (f a).findSome? g := by
  induction l with
  | nil => rfl
  | cons a l ih =>
    rw [List.flatMap_cons, List.findSome?_append, ih, List.findSome?_cons]
    cases (f a).findSome? g <;> rfl

/-- A traversal gives a list exactly when it gives each of its elements. -/
theorem mapM_eq_ok_iff {f : α → Except ε β} {l : List α} {r : List β} :
    l.mapM f = .ok r ↔ List.Forall₂ (fun a b ↦ f a = .ok b) l r := by
  induction l generalizing r with
  | nil =>
    rw [List.forall₂_nil_left_iff]
    exact ⟨fun h ↦ (Except.ok.inj h).symm, fun h ↦ h ▸ rfl⟩
  | cons a l ih =>
    rw [List.mapM_cons, List.forall₂_cons_left_iff]
    cases ha : f a with
    | error e => exact ⟨fun h ↦ (nomatch h), fun ⟨b, _, hb, _⟩ ↦ (nomatch hb)⟩
    | ok b =>
      cases hl : l.mapM f with
      | error e =>
        refine ⟨fun h ↦ (nomatch h), fun ⟨_, bs, _, hbs, _⟩ ↦ ?_⟩
        rw [← ih, hl] at hbs
        exact nomatch hbs
      | ok bs =>
        constructor
        · intro h
          exact ⟨b, bs, rfl, ih.mp hl, (Except.ok.inj h).symm⟩
        · rintro ⟨b', bs', hb, hbs, rfl⟩
          rw [← ih, hl] at hbs
          cases hb
          cases hbs
          rfl

theorem mapM_cons_eq_some_iff {f : α → Option β} {a : α} {l : List α} {r : List β} :
    (a :: l).mapM f = some r ↔ ∃ b, f a = some b ∧ ∃ bs, l.mapM f = some bs ∧ b :: bs = r := by
  simp [Option.bind_eq_some_iff]

/-- A traversal of optional values gives them in the order of the elements. -/
theorem mapM_eq_some_iff {f : α → Option β} {l : List α} {r : List β} :
    l.mapM f = some r ↔ List.Forall₂ (fun a b ↦ f a = some b) l r := by
  induction l generalizing r with
  | nil =>
    rw [List.forall₂_nil_left_iff]
    exact ⟨fun h ↦ (Option.some.inj h).symm, fun h ↦ h ▸ rfl⟩
  | cons a l ih =>
    rw [mapM_cons_eq_some_iff, List.forall₂_cons_left_iff]
    constructor
    · rintro ⟨b, hb, bs, hbs, rfl⟩
      exact ⟨b, bs, hb, ih.mp hbs, rfl⟩
    · rintro ⟨b, bs, hb, hbs, rfl⟩
      exact ⟨b, hb, bs, ih.mpr hbs, rfl⟩

/-- A traversal that succeeds takes each element on its own. -/
theorem mapM_append_cons_eq_some_iff {f : α → Option β} {front back : List α} {a : α}
    {r : List β} : (front ++ a :: back).mapM f = some r ↔ ∃ before b after,
      front.mapM f = some before ∧ f a = some b ∧ back.mapM f = some after ∧
        r = before ++ b :: after := by
  rw [List.mapM_append, List.mapM_cons]
  cases front.mapM f <;> cases f a <;> cases back.mapM f <;> simp [eq_comm]

theorem isSome_mapM (f : α → Option β) (l : List α) :
    (l.mapM f).isSome = l.all fun a ↦ (f a).isSome := by
  induction l with
  | nil => rfl
  | cons a l ih =>
    rw [List.mapM_cons, List.all_cons, ← ih]
    cases f a <;> cases l.mapM f <;> rfl

theorem exists_of_mem {R : α → β → Prop} {l : List α} {r : List β} (h : List.Forall₂ R l r) {a : α}
    (ha : a ∈ l) : ∃ b ∈ r, R a b := by
  induction h with
  | nil => exact nomatch ha
  | cons hfirst _ ih =>
    rcases List.mem_cons.mp ha with rfl | ha
    · exact ⟨_, List.mem_cons_self, hfirst⟩
    · obtain ⟨b, hb, hR⟩ := ih ha
      exact ⟨b, List.mem_cons_of_mem _ hb, hR⟩

theorem exists_of_mem_right {R : α → β → Prop} {l : List α} {r : List β} (h : List.Forall₂ R l r)
    {b : β} (hb : b ∈ r) : ∃ a ∈ l, R a b :=
  exists_of_mem (R := flip R) h.flip hb

/-- Lists that are related element by element are related at every position. -/
theorem exists_of_getElem? {R : α → β → Prop} {l : List α} {r : List β} (h : List.Forall₂ R l r)
    {i : Nat} {a : α} (ha : l[i]? = some a) : ∃ b, r[i]? = some b ∧ R a b := by
  induction h generalizing i with
  | nil => exact nomatch ha
  | @cons first image l r hfirst _ ih =>
    cases i with
    | zero =>
      cases ha
      exact ⟨image, rfl, hfirst⟩
    | succ i =>
      rw [List.getElem?_cons_succ] at ha ⊢
      exact ih ha

theorem exists_ok_of_mem {f : α → Except ε β} {l : List α} {r : List β} (h : l.mapM f = .ok r)
    {a : α} (ha : a ∈ l) : ∃ b ∈ r, f a = .ok b :=
  exists_of_mem (mapM_eq_ok_iff.mp h) ha

/-- What a traversal gives comes from the elements of the list. -/
theorem exists_mem_of_ok {f : α → Except ε β} {l : List α} {r : List β} (h : l.mapM f = .ok r)
    {b : β} (hb : b ∈ r) : ∃ a ∈ l, f a = .ok b :=
  exists_of_mem_right (mapM_eq_ok_iff.mp h) hb

theorem length_of_mapM {f : α → Except ε β} {l : List α} {r : List β} (h : l.mapM f = .ok r) :
    r.length = l.length :=
  (mapM_eq_ok_iff.mp h).length_eq.symm

theorem mapM_map (f : α → Except ε β) (g : β → γ) (l : List α) :
    (l.mapM fun a ↦ (f a).map g) = (l.mapM f).map (List.map g) := by
  induction l with
  | nil => rfl
  | cons a l ih =>
    rw [List.mapM_cons, List.mapM_cons, ih]
    cases f a with
    | error e => rfl
    | ok b => cases l.mapM f <;> rfl

/-- Elements that are passed over leave no trace in a traversal. -/
theorem mapM_filterMap_id (skip : α → Bool) (f : α → Except ε β) (l : List α) :
    ((l.mapM fun a ↦ if skip a then .ok none else (f a).map some).map (List.filterMap id)) =
      (l.filter fun a ↦ !skip a).mapM f := by
  induction l with
  | nil => rfl
  | cons a l ih =>
    rw [List.mapM_cons]
    cases hskip : skip a with
    | true =>
      rw [List.filter_cons_of_neg (by simp [hskip]), ← ih]
      cases l.mapM fun a ↦ if skip a then .ok none else (f a).map some <;> rfl
    | false =>
      rw [List.filter_cons_of_pos (by simp [hskip]), List.mapM_cons, ← ih]
      cases f a with
      | error e => rfl
      | ok b => cases l.mapM fun a ↦ if skip a then .ok none else (f a).map some <;> rfl

end Bindery.Traversal
