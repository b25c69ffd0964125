import Bindery.Text.Lowercase
import Mathlib.Data.List.Basic
import Mathlib.Tactic.SplitIfs

/-!
# What lower case does to a text

Where there is no capital sigma, the lower case of a text is that of its characters, each on its own
(`lowercase_of_sigma_notMem`); in ASCII it is that of its letters (`lowercase_of_ascii`).

No run of the table moves a code point to which a run leads (`aside_of_mem_lowerRuns`), so that the
characters of a lower case are lower case themselves (`isLowered_of_mem_lowercase`), and the lower
case of such characters is the text as it stands (`lowercase_of_isLowered`). So lower case is
idempotent (`lowercase_lowercase`).
-/

set_option autoImplicit false
set_option relaxedAutoImplicit false

namespace Bindery.Text

/-! ### Each character on its own -/

theorem lowercaseAfter_of_sigma_notMem (before : List Char) {s : List Char} (hs : 'Σ' ∉ s) :
    lowercaseAfter before s = s.flatMap lowerFull := by
  induction s generalizing before with
  | nil => rfl
  | cons c s ih =>
    obtain ⟨hc, hs⟩ := List.ne_and_not_mem_of_not_mem_cons hs
    rw [lowercaseAfter, if_neg hc.symm, ih (c :: before) hs, List.flatMap_cons]

/-- Without a capital sigma, no character depends on its place. -/
theorem lowercase_of_sigma_notMem {s : List Char} (hs : 'Σ' ∉ s) :
    lowercase s = s.flatMap lowerFull :=
  lowercaseAfter_of_sigma_notMem [] hs

/-! ### ASCII -/

/-- What holds of each of the first 128 code points holds in ASCII. -/
theorem forall_ascii {p : Char → Prop} (hp : ∀ n : Fin 128, p (Char.ofNat n)) {c : Char}
    (hc : c.toNat < 128) : p c := by
  have hcode := hp ⟨c.toNat, hc⟩
  rwa [Char.ofNat_toNat] at hcode

/-- The capitals of ASCII make the first run; all other runs are further up. -/
theorem exists_lowerRuns : ∃ later, lowerRuns = (0x41, 0x5a, 1, 0x61) :: later ∧
    ∀ run ∈ later, 128 ≤ run.1 :=
  ⟨_, rfl, by decide +kernel⟩

theorem toLower_of_ascii {c : Char} (hc : c.toNat < 128) :
    c.toLower = if 65 ≤ c.toNat ∧ c.toNat ≤ 90 then Char.ofNat (97 + (c.toNat - 65)) else c :=
  forall_ascii (p := fun c ↦ c.toLower =
    if 65 ≤ c.toNat ∧ c.toNat ≤ 90 then Char.ofNat (97 + (c.toNat - 65)) else c)
    (by decide +kernel) hc

theorem lowerChar_of_ascii {c : Char} (hc : c.toNat < 128) : lowerChar c = c.toLower := by
  obtain ⟨later, hruns, hlater⟩ := exists_lowerRuns
  have hnone : (later.find? fun run ↦ run.1 ≤ c.toNat && c.toNat ≤ run.2.1 &&
      (c.toNat - run.1) % run.2.2.1 == 0) = none := by
    refine List.find?_eq_none.mpr fun run hrun hfound ↦ ?_
    have hfirst := hlater run hrun
    simp only [Bool.and_eq_true, decide_eq_true_eq] at hfound
    omega
  rw [lowerChar, hruns, List.find?_cons, hnone, toLower_of_ascii hc]
  by_cases hcapital : 65 ≤ c.toNat ∧ c.toNat ≤ 90
  · simp [hcapital, Nat.mod_one]
  · have hother : (decide (65 ≤ c.toNat) && decide (c.toNat ≤ 90) &&
        (c.toNat - 65) % 1 == 0) = false := by
      rw [Bool.and_eq_false_iff, ← Bool.decide_and, decide_eq_false hcapital]
      exact .inl rfl
    rw [hother, if_neg hcapital]

theorem lowerFull_of_ascii {c : Char} (hc : c.toNat < 128) : lowerFull c = [c.toLower] := by
  have hdotted : c ≠ 'İ' := by
    rintro rfl
    exact absurd hc (by decide)
  rw [lowerFull, if_neg hdotted, lowerChar_of_ascii hc]

theorem flatMap_lowerFull_of_ascii {s : List Char} (hs : ∀ c ∈ s, c.toNat < 128) :
    s.flatMap lowerFull = s.map Char.toLower := by
  rw [List.map_eq_flatMap]
  exact List.flatMap_congr fun c hc ↦ lowerFull_of_ascii (hs c hc)

/-- The lower case of a text in ASCII. -/
theorem lowercase_of_ascii {s : List Char} (hs : ∀ c ∈ s, c.toNat < 128) :
    lowercase s = s.map Char.toLower := by
  have hsigma : 'Σ' ∉ s := fun hmem ↦ absurd (hs 'Σ' hmem) (by decide)
  rw [lowercase_of_sigma_notMem hsigma, flatMap_lowerFull_of_ascii hs]

/-! ### What is lower case -/

/-- Whether a run moves a code point. -/
def moves (n : Nat) (run : Nat × Nat × Nat × Nat) : Bool :=
  run.1 ≤ n && n ≤ run.2.1 && (n - run.1) % run.2.2.1 == 0

/-- The runs of the table, and `İ`, whose lower case is two characters. -/
def movedRuns : List (Nat × Nat × Nat × Nat) := (0x130, 0x130, 1, 0x69) :: lowerRuns

/-- Characters that have no lower case but themselves. -/
def IsLowered (c : Char) : Prop := ∀ run ∈ movedRuns, moves c.toNat run = false

instance : DecidablePred IsLowered := fun c ↦
  decidable_of_iff (movedRuns.all fun run ↦ !moves c.toNat run) (by simp [IsLowered])

/-- Whether the images of a run all stand below another run, or above it, or between its code
points: both go in steps of two then, one through the even code points and one through the odd. -/
def aside (run other : Nat × Nat × Nat × Nat) : Bool :=
  Nat.blt (run.2.2.2 + (run.2.1 - run.1)) other.1 || Nat.blt other.2.1 run.2.2.2 ||
    ((run.1 == run.2.1 || run.2.2.1 == 2) && other.2.2.1 == 2 &&
      (run.2.2.2 + other.1) % 2 == 1)

/-- No run leads to a code point that is moved. -/
theorem aside_of_mem_lowerRuns : ∀ run ∈ lowerRuns, ∀ other ∈ movedRuns,
    aside run other = true := by
  simp only [← List.all_eq_true]
  decide +kernel

/-- The runs lead to characters, not to surrogates. -/
theorem isValidChar_of_mem_lowerRuns : ∀ run ∈ lowerRuns,
    run.2.2.2 + (run.2.1 - run.1) < 0xd800 ∨
      0xdfff < run.2.2.2 ∧ run.2.2.2 + (run.2.1 - run.1) < 0x110000 := by
  decide +kernel

theorem moves_eq_true_iff {n : Nat} {run : Nat × Nat × Nat × Nat} : moves n run = true ↔
    (run.1 ≤ n ∧ n ≤ run.2.1) ∧ (n - run.1) % run.2.2.1 = 0 := by
  rw [moves, Bool.and_eq_true, Bool.and_eq_true, decide_eq_true_eq, decide_eq_true_eq, beq_iff_eq]

theorem moves_image_eq_false {n : Nat} {run other : Nat × Nat × Nat × Nat}
    (hrun : moves n run = true) (haside : aside run other = true) :
    moves (run.2.2.2 + (n - run.1)) other = false := by
  obtain ⟨⟨hfirst, hlast⟩, hstep⟩ := moves_eq_true_iff.mp hrun
  refine Bool.eq_false_iff.mpr fun hother ↦ ?_
  obtain ⟨⟨hotherFirst, hotherLast⟩, hotherStep⟩ := moves_eq_true_iff.mp hother
  simp only [aside, Bool.or_eq_true, Bool.and_eq_true, Nat.blt_eq, beq_iff_eq] at haside
  rcases haside with (hbelow | habove) | ⟨⟨hruns, hotherRuns⟩, hparity⟩
  · omega
  · omega
  · rw [hotherRuns] at hotherStep
    rcases hruns with hsingle | hruns
    · omega
    · rw [hruns] at hstep
      omega

theorem lowerChar_cases (c : Char) :
    (∀ run ∈ lowerRuns, moves c.toNat run = false) ∧ lowerChar c = c ∨
      ∃ run ∈ lowerRuns, moves c.toNat run = true ∧
        (lowerChar c).toNat = run.2.2.2 + (c.toNat - run.1) := by
  unfold lowerChar
  split
  case h_1 run hfind =>
    have hrun := List.mem_of_find?_eq_some hfind
    have hmoves : moves c.toNat run = true := List.find?_some hfind
    have hbounds := (moves_eq_true_iff.mp hmoves).1
    have hvalid : (run.2.2.2 + (c.toNat - run.1)).isValidChar := by
      have himages := isValidChar_of_mem_lowerRuns run hrun
      unfold Nat.isValidChar
      omega
    refine .inr ⟨run, hrun, hmoves, ?_⟩
    rw [Char.ofNat, dif_pos hvalid]
    rfl
  case h_2 hfind =>
    exact .inl ⟨fun run hrun ↦ Bool.eq_false_iff.mpr (List.find?_eq_none.mp hfind run hrun), rfl⟩

theorem isLowered_lowerChar {c : Char} (hc : c ≠ 'İ') : IsLowered (lowerChar c) := by
  intro other hother
  rcases lowerChar_cases c with ⟨hkept, heq⟩ | ⟨run, hrun, hmoves, hcode⟩
  · rw [heq]
    rcases List.mem_cons.mp hother with rfl | hother
    · refine Bool.eq_false_iff.mpr fun hmoves ↦ hc (Char.toNat_inj.mp ?_)
      have hcode := (moves_eq_true_iff.mp hmoves).1
      exact Nat.le_antisymm hcode.2 hcode.1
    · exact hkept other hother
  · rw [hcode]
    exact moves_image_eq_false hmoves (aside_of_mem_lowerRuns run hrun other hother)

theorem isLowered_of_mem_lowerFull {c d : Char} (hd : d ∈ lowerFull c) : IsLowered d := by
  unfold lowerFull at hd
  split_ifs at hd with hdotted
  · have hboth : ∀ d ∈ ['i', '\u0307'], IsLowered d :=
      List.forall_mem_cons.mpr ⟨by decide +kernel, List.forall_mem_singleton.mpr (by decide +kernel)⟩
    exact hboth d hd
  · rw [List.mem_singleton.mp hd]
    exact isLowered_lowerChar hdotted

theorem isLowered_lowerSigma (before after : List Char) : IsLowered (lowerSigma before after) := by
  unfold lowerSigma
  split_ifs
  · decide +kernel
  · decide +kernel

theorem isLowered_of_mem_lowercaseAfter {before s : List Char} {d : Char}
    (hd : d ∈ lowercaseAfter before s) : IsLowered d := by
  induction s generalizing before with
  | nil => exact nomatch hd
  | cons c s ih =>
    rcases List.mem_append.mp hd with hd | hd
    · split_ifs at hd
      · rw [List.mem_singleton.mp hd]
        exact isLowered_lowerSigma before s
      · exact isLowered_of_mem_lowerFull hd
    · exact ih hd

theorem isLowered_of_mem_lowercase {s : List Char} {d : Char} (hd : d ∈ lowercase s) :
    IsLowered d :=
  isLowered_of_mem_lowercaseAfter hd

theorem IsLowered.lowerFull_eq {c : Char} (hc : IsLowered c) : lowerFull c = [c] := by
  have hdotted : c ≠ 'İ' := by
    rintro rfl
    exact absurd (hc _ List.mem_cons_self) (by decide)
  rw [lowerFull, if_neg hdotted]
  rcases lowerChar_cases c with ⟨-, heq⟩ | ⟨run, hrun, hmoves, -⟩
  · rw [heq]
  · rw [hc run (List.mem_cons_of_mem _ hrun)] at hmoves
    exact absurd hmoves Bool.false_ne_true

theorem not_isLowered_sigma : ¬ IsLowered 'Σ' := by
  decide +kernel

theorem flatMap_lowerFull_of_isLowered {s : List Char} (hs : ∀ c ∈ s, IsLowered c) :
    s.flatMap lowerFull = s := by
  rw [List.flatMap_congr fun c hc ↦ (hs c hc).lowerFull_eq, List.flatMap_singleton']

/-- Lower case is left as it is. -/
theorem lowercase_of_isLowered {s : List Char} (hs : ∀ c ∈ s, IsLowered c) : lowercase s = s := by
  rw [lowercase_of_sigma_notMem fun hmem ↦ not_isLowered_sigma (hs 'Σ' hmem),
    flatMap_lowerFull_of_isLowered hs]

theorem lowercase_lowercase (s : List Char) : lowercase (lowercase s) = lowercase s :=
  lowercase_of_isLowered fun _ ↦ isLowered_of_mem_lowercase

end Bindery.Text
