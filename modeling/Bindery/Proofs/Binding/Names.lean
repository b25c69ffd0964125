import Bindery.Proofs.Binding.Passing
import Bindery.Proofs.Identifier.Segments

/-!
# Names of wrappers

A name that begins with a capital and has no acronym in it can be read back from its snake case: the
first letter was a capital, and so was every letter behind an underscore (`restore_snake`). So two
functions of different names, both of that kind, never get wrappers of one name
(`wrapper_names_distinct`).
-/

set_option autoImplicit false
set_option relaxedAutoImplicit false

namespace Bindery

namespace Identifier

open Text

/-- A capital, and then letters and digits, among which no acronym occurs. -/
structure Capitalized (s : List Char) : Prop where
  capital : s.head?.any Char.isUpper = true
  letters : s.all Char.isAlphanum = true
  absent : ∀ acronym ∈ acronyms, ¬ acronym <:+: s

instance : DecidablePred Capitalized := fun s ↦
  decidable_of_iff (s.head?.any Char.isUpper = true ∧ s.all Char.isAlphanum = true ∧
    ∀ acronym ∈ acronyms, ¬ acronym <:+: s) ⟨fun h ↦ ⟨h.1, h.2.1, h.2.2⟩, fun h ↦ ⟨h.1, h.2, h.3⟩⟩

/-- Reads back a name from its snake case; `capital` says that the next letter was a capital. -/
def restore : Bool → List Char → List Char
  | _, [] => []
  | capital, c :: s =>
    if c = '_' then restore true s
    else (if capital then c.toUpper else c) :: restore false s

theorem restore_letter {c : Char} (capital : Bool) (hc : c.isAlphanum = true) (s : List Char) :
    restore capital (c.toLower :: s) =
      (if capital then c.toLower.toUpper else c.toLower) :: restore false s := by
  refine if_neg fun hunderscore ↦ ?_
  have hsmall := (toLower_of_isAlphanum hc).2.2
  rw [hunderscore] at hsmall
  exact absurd hsmall (by decide)

theorem toUpper_toLower {c : Char} (hc : c.isUpper = true) : c.toLower.toUpper = c :=
  forall_ascii (p := fun c ↦ c.isUpper = true → c.toLower.toUpper = c) (by decide +kernel)
    (toNat_of_isAlphanum (isAlphanum_of_isUpper hc)) hc

theorem toLower_of_not_isUpper {c : Char} (hc : c.isAlphanum = true) (hupper : ¬ c.isUpper = true) :
    c.toLower = c :=
  forall_ascii (p := fun c ↦ c.isAlphanum = true → ¬ c.isUpper = true → c.toLower = c)
    (by decide +kernel) (toNat_of_isAlphanum hc) hc hupper

/-- Reading back undoes both passes over a name, that of the underscores and that of lower case. -/
theorem restore_separated {s : List Char} (hs : ∀ c ∈ s, c.isAlphanum = true) :
    restore false ((s.flatMap separated).map Char.toLower) = s := by
  induction s with
  | nil => rfl
  | cons c s ih =>
    obtain ⟨hc, hs⟩ := List.forall_mem_cons.mp hs
    rw [List.flatMap_cons, List.map_append]
    by_cases hupper : c.isUpper = true
    · rw [separated, if_pos hupper]
      change restore true (c.toLower :: (s.flatMap separated).map Char.toLower) = c :: s
      rw [restore_letter true hc, if_pos rfl, toUpper_toLower hupper, ih hs]
    · rw [separated, if_neg hupper]
      change restore false (c.toLower :: (s.flatMap separated).map Char.toLower) = c :: s
      rw [restore_letter false hc, if_neg (by decide), toLower_of_not_isUpper hc hupper, ih hs]

/-- A capitalized name can be read back. -/
theorem restore_snake {s : List Char} (hs : Capitalized s) : restore true (snake s) = s := by
  have hcapital := hs.capital
  have hletters := List.all_eq_true.mp hs.letters
  have hascii : ∀ c ∈ separateCapitals s, c.toNat < 128 := by
    intro c hc
    rcases mem_separateCapitals hc with rfl | hc
    · decide
    · exact toNat_of_isAlphanum (hletters c hc)
  rw [snake, joinAcronyms, joinAcronymsOf_of_absent hs.absent, lowercase_of_ascii hascii]
  cases s with
  | nil => exact absurd hcapital (by decide)
  | cons c s =>
    obtain ⟨hc, hlater⟩ := List.forall_mem_cons.mp hletters
    rw [separateCapitals, List.map_cons, restore_letter true hc, if_pos rfl,
      toUpper_toLower hcapital, restore_separated hlater]

theorem snakeCase_inj {m n : String} (hm : Capitalized m.toList) (hn : Capitalized n.toList)
    (h : snakeCase m = snakeCase n) : m = n := by
  rw [snakeCase, snakeCase, String.ofList_inj] at h
  rw [← String.toList_inj, ← restore_snake hm, h, restore_snake hn]

end Identifier

open Identifier

/-- Capitalized names without acronyms are different in snake case if they are different; so of
functions with such names, no two of which are the same, no two are bound to wrappers of one
name. -/
theorem wrapper_names_distinct :
    (∀ m n : String, Capitalized m.toList → Capitalized n.toList →
      snakeCase m = snakeCase n → m = n) ∧
    ∀ (variadics : List (String × String)) (functions : List Interface.Function),
      (∀ f ∈ functions, Capitalized f.name.toList) → (functions.map (·.name)).Nodup →
      functions.Pairwise fun f g ↦ ∀ binding other,
        Binding.ofFunction variadics f = .ok binding → Binding.ofFunction variadics g = .ok other →
          binding.name ≠ other.name := by
  refine ⟨fun m n ↦ snakeCase_inj, fun variadics functions hcapitalized hdistinct ↦ ?_⟩
  refine (List.pairwise_map.mp hdistinct).imp_of_mem fun {f g} hf hg hne binding other hbinding
    hother hsame ↦ hne ?_
  obtain ⟨_, _, -, -, rfl⟩ := Binding.ofFunction_eq_ok_iff.mp hbinding
  obtain ⟨_, _, -, -, rfl⟩ := Binding.ofFunction_eq_ok_iff.mp hother
  exact snakeCase_inj (hcapitalized f hf) (hcapitalized g hg) hsame

/-- Functions whose names differ in case, or in a digit at the end, alone. -/
def similarFunctions : List Interface.Function :=
  ["LoadXML", "LoadXMl", "Loadxml", "LoadXML2"].map fun name ↦ ⟨name, "void", [], ""⟩

theorem wrapper_names_distinct_similarFunctions :
    (∀ f ∈ similarFunctions, Capitalized f.name.toList) ∧
      snakeCase "LoadXML" ≠ snakeCase "LoadXMl" ∧
      similarFunctions.Pairwise fun f g ↦ ∀ binding other,
        Binding.ofFunction [] f = .ok binding → Binding.ofFunction [] g = .ok other →
          binding.name ≠ other.name := by
  have hcapitalized : ∀ f ∈ similarFunctions, Capitalized f.name.toList := by decide +kernel
  refine ⟨hcapitalized, fun hsame ↦ ?_,
    wrapper_names_distinct.2 [] similarFunctions hcapitalized (by decide)⟩
  have heq := wrapper_names_distinct.1 "LoadXML" "LoadXMl" (by decide +kernel) (by decide +kernel)
    hsame
  exact absurd heq (by decide)

end Bindery
