import Bindery.Text.Replace
import Mathlib.Data.List.Infix
import Mathlib.Tactic.SplitIfs

/-!
# What replacing a pattern keeps

The characters after an occurrence that was found are passed over, so that replacing is a recursion
on texts: the image stands for an occurrence at the beginning, and without one there the first
character is kept. What holds of the two steps holds of a text and what it becomes
(`replaceAll_induction`). A text in which the pattern does not occur stays as it is
(`replaceAll_of_absent`), and what occurs in the text that results has occurred before, lies in an
image or goes on from the end of one (`origin_of_infix_replaceAll`).
-/

set_option autoImplicit false
set_option relaxedAutoImplicit false

namespace Bindery.Text

variable {pattern image s : List Char}

/-- The rest of an occurrence is dropped. -/
theorem replaceFrom_eq_replaceAll_drop (inside : Nat) (s : List Char) :
    replaceFrom pattern image inside s = replaceAll pattern image (s.drop inside) := by
  induction inside generalizing s with
  | zero => rfl
  | succ inside ih =>
    cases s with
    | nil => rfl
    | cons c s => exact ih s

theorem replaceAll_append (hpattern : pattern ≠ []) (s : List Char) :
    replaceAll pattern image (pattern ++ s) = image ++ replaceAll pattern image s := by
  obtain ⟨c, rest, rfl⟩ := List.exists_cons_of_ne_nil hpattern
  have hfound : (c :: rest).isPrefixOf (c :: (rest ++ s)) = true :=
    List.isPrefixOf_iff_prefix.mpr (List.prefix_append (c :: rest) s)
  rw [List.cons_append, replaceAll, replaceFrom, if_pos hfound, replaceFrom_eq_replaceAll_drop,
    List.length_cons, Nat.add_sub_cancel, List.drop_left]

theorem replaceAll_cons {c : Char} (h : ¬ pattern <+: c :: s) :
    replaceAll pattern image (c :: s) = c :: replaceAll pattern image s := by
  rw [replaceAll, replaceFrom, if_neg (mt List.isPrefixOf_iff_prefix.mp h), replaceAll]

/-- A text is read from left to right, where an occurrence of a pattern is passed over as a whole and
a character by itself if no occurrence begins with it. -/
theorem occurrence_induction {motive : List Char → Prop} (hpattern : pattern ≠ [])
    (nil : motive []) (found : ∀ s, motive s → motive (pattern ++ s))
    (kept : ∀ c s, ¬ pattern <+: c :: s → motive s → motive (c :: s)) (s : List Char) :
    motive s := by
  -- an occurrence is passed over as a whole, so the induction is on the length
  induction hlength : s.length using Nat.strong_induction_on generalizing s with
  | _ length ih =>
    subst hlength
    by_cases hfound : pattern <+: s
    · obtain ⟨rest, rfl⟩ := hfound
      refine found rest (ih rest.length ?_ rest rfl)
      rw [List.length_append]
      exact Nat.lt_add_of_pos_left (List.length_pos_iff.mpr hpattern)
    · cases s with
      | nil => exact nil
      | cons c s => exact kept c s hfound (ih s.length (Nat.lt_succ_self _) s rfl)

/-- What holds of the empty text, and is kept by an occurrence that is replaced and by a character
that stays, holds of every text and what it becomes. -/
theorem replaceAll_induction {motive : List Char → List Char → Prop} (hpattern : pattern ≠ [])
    (nil : motive [] [])
    (found : ∀ s t, motive s t → motive (pattern ++ s) (image ++ t))
    (kept : ∀ c s t, motive s t → motive (c :: s) (c :: t)) (s : List Char) :
    motive s (replaceAll pattern image s) := by
  refine occurrence_induction (motive := fun s ↦ motive s (replaceAll pattern image s)) hpattern nil
    (fun s ih ↦ ?_) (fun c s hfound ih ↦ ?_) s
  · rw [replaceAll_append hpattern]
    exact found s _ ih
  · rw [replaceAll_cons hfound]
    exact kept c s _ ih

theorem mem_replaceAll (hpattern : pattern ≠ []) {c : Char} (hc : c ∈ replaceAll pattern image s) :
    c ∈ image ∨ c ∈ s := by
  refine replaceAll_induction (motive := fun s t ↦ c ∈ t → c ∈ image ∨ c ∈ s) hpattern .inr ?_ ?_ s
    hc
  · intro s t ih hc
    exact (List.mem_append.mp hc).elim .inl fun hc ↦ (ih hc).imp_right (List.mem_append_right pattern)
  · intro d s t ih hc
    rcases List.mem_cons.mp hc with rfl | hc
    · exact .inr List.mem_cons_self
    · exact (ih hc).imp_right (List.mem_cons_of_mem d)

theorem replaceAll_ne_nil (himage : image ≠ []) (hs : s ≠ []) : replaceAll pattern image s ≠ [] := by
  obtain ⟨c, s, rfl⟩ := List.exists_cons_of_ne_nil hs
  rw [replaceAll, replaceFrom]
  split_ifs
  · exact List.append_ne_nil_of_left_ne_nil himage _
  · exact List.cons_ne_nil _ _

/-- A text without the pattern is not changed. -/
theorem replaceAll_of_absent (h : ¬ pattern <:+: s) : replaceAll pattern image s = s := by
  induction s with
  | nil => rfl
  | cons c s ih =>
    rw [replaceAll_cons (mt List.IsPrefix.isInfix h), ih (mt (List.infix_cons (a := c)) h)]

/-! ### Occurrences in what replacing leaves

Here images begin with a mark, and texts without it are looked for. -/

variable {mark : Char} {body text : List Char}

theorem prefix_of_prefix_replaceAll (hpattern : pattern ≠ []) (htext : mark ∉ text)
    (h : text <+: replaceAll pattern (mark :: body) s) : text <+: s := by
  refine replaceAll_induction
    (motive := fun s t ↦ ∀ text, mark ∉ text → text <+: t → text <+: s) hpattern
    (fun _ _ h ↦ h) (fun s t _ text htext h ↦ ?_) (fun c s t ih text htext h ↦ ?_) s text htext h
  · cases text with
    | nil => exact List.nil_prefix
    | cons c text =>
      obtain ⟨rfl, -⟩ := List.cons_prefix_cons.mp h
      exact absurd List.mem_cons_self htext
  · cases text with
    | nil => exact List.nil_prefix
    | cons d text =>
      obtain ⟨rfl, hrest⟩ := List.cons_prefix_cons.mp h
      exact List.cons_prefix_cons.mpr ⟨rfl, ih text (mt (List.mem_cons_of_mem d) htext) hrest⟩

/-- Where an occurrence of a text comes from in what replacing a pattern leaves of `s`: it was in
`s`, and does not begin with the pattern; or it is in the image; or it begins with the end of an image
and goes on with what stood behind the pattern. -/
inductive Origin (pattern body s text : List Char) : Prop
  | old (htext : text <:+: s) (hpattern : ¬ pattern <+: text)
  | image (htext : text <:+: body)
  | overlap {last next : List Char} (hsplit : text = last ++ next) (hne : last ≠ [])
      (hlast : last <:+ body) (hnext : pattern ++ next <:+: s)

theorem Origin.mono {t : List Char} (hst : s <:+: t) (h : Origin pattern body s text) :
    Origin pattern body t text := by
  cases h with
  | old htext hpattern => exact .old (htext.trans hst) hpattern
  | image htext => exact .image htext
  | overlap hsplit hne hlast hnext => exact .overlap hsplit hne hlast (hnext.trans hst)

theorem origin_of_infix_replaceAll (hpattern : pattern ≠ []) (htext : mark ∉ text)
    (h : text <:+: replaceAll pattern (mark :: body) s) : Origin pattern body s text := by
  have hempty : text = [] → ∀ s, Origin pattern body s text := by
    rintro rfl s
    exact .old List.nil_infix (mt List.prefix_nil.mp hpattern)
  induction s using occurrence_induction hpattern with
  | nil => exact hempty (List.infix_nil.mp h) []
  | found s ih =>
    have hlater (h : text <:+: replaceAll pattern (mark :: body) s) :
        Origin pattern body (pattern ++ s) text := (ih h).mono List.infix_append_right
    rw [replaceAll_append hpattern, List.infix_append_iff] at h
    rcases h with himage | hlate | ⟨last, next, rfl, hlast, hnext⟩
    · rcases List.infix_cons_iff.mp himage with hfront | hinside
      · refine hempty ?_ _
        cases text with
        | nil => rfl
        | cons c text =>
          obtain ⟨rfl, -⟩ := List.cons_prefix_cons.mp hfront
          exact absurd List.mem_cons_self htext
      · exact .image hinside
    · exact hlater hlate
    · have hmark : mark ∉ last ∧ mark ∉ next := by simpa using htext
      rcases List.suffix_cons_iff.mp hlast with rfl | hlast
      · exact absurd List.mem_cons_self hmark.1
      by_cases hne : last = []
      · subst hne
        exact hlater hnext.isInfix
      · have hold := prefix_of_prefix_replaceAll hpattern hmark.2 hnext
        exact .overlap rfl hne hlast (List.prefix_append_right_inj pattern |>.mpr hold).isInfix
  | kept c s hfound ih =>
    rw [replaceAll_cons hfound] at h
    rcases List.infix_cons_iff.mp h with hfront | hlater
    · rw [← replaceAll_cons hfound] at hfront
      have hold := prefix_of_prefix_replaceAll hpattern htext hfront
      exact .old hold.isInfix fun hstarts ↦ hfound (hstarts.trans hold)
    · exact (ih hlater).mono (List.suffix_cons c s).isInfix

end Bindery.Text
