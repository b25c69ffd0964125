import Bindery.Proofs.Text.Blank
import Mathlib.Data.List.Forall2

/-!
# Texts that are put together from pieces

A text that is divided at a character is `List.splitOn`: in front of what is put behind a text, the
pieces stay the same (`exists_splitOn_append`). Pieces that each end in a character that is in none
of them can be told apart (`flatMap_ended_inj`); so can the lines of a text, and the blocks of its
lines. Pieces with a separator in between are counted by a character that only the separator has
(`count_intercalate`).
-/

set_option autoImplicit false
set_option relaxedAutoImplicit false

namespace Bindery.Text

variable {α : Type} [BEq α] [LawfulBEq α]

/-! ### Dividing at a character -/

theorem notMem_of_mem_splitOn {c : α} {s piece : List α} (hpiece : piece ∈ s.splitOn c) :
    c ∉ piece := by
  induction s generalizing piece with
  | nil =>
    rw [List.splitOn_nil] at hpiece
    simp [List.mem_singleton.mp hpiece]
  | cons d s ih =>
    rw [List.splitOn_cons_eq_if_modifyHead] at hpiece
    split_ifs at hpiece with hd
    · rcases List.mem_cons.mp hpiece with rfl | hpiece
      · exact List.not_mem_nil
      · exact ih hpiece
    · obtain ⟨first, pieces, hs⟩ := List.exists_cons_of_ne_nil (List.splitOn_ne_nil c s)
      rw [hs, List.modifyHead_cons] at hpiece
      rw [hs] at ih
      have hdc : d ≠ c := by simpa using hd
      rcases List.mem_cons.mp hpiece with rfl | hpiece
      · simpa [hdc.symm] using ih List.mem_cons_self
      · exact ih (List.mem_cons_of_mem _ hpiece)

/-- A text is divided in the same way before its last piece, whatever follows. -/
theorem exists_splitOn_append (c : α) (s : List α) : ∃ pieces last,
    ∀ t, (s ++ t).splitOn c = pieces ++ (t.splitOn c).modifyHead (last ++ ·) := by
  induction s with
  | nil =>
    refine ⟨[], [], fun t ↦ ?_⟩
    rw [List.nil_append, List.nil_append]
    cases t.splitOn c <;> rfl
  | cons d s ih =>
    obtain ⟨pieces, last, happend⟩ := ih
    by_cases hd : d = c
    · refine ⟨[] :: pieces, last, fun t ↦ ?_⟩
      rw [List.cons_append, List.splitOn_cons_eq_if_modifyHead, if_pos (beq_iff_eq.mpr hd),
        happend, List.cons_append]
    · have hcons : ∀ t, (d :: s ++ t).splitOn c =
          (pieces ++ (t.splitOn c).modifyHead (last ++ ·)).modifyHead (List.cons d) := by
        intro t
        rw [List.cons_append, List.splitOn_cons_eq_if_modifyHead, if_neg (by simpa using hd),
          happend]
      cases pieces with
      | nil =>
        refine ⟨[], d :: last, fun t ↦ ?_⟩
        rw [hcons]
        cases t.splitOn c <;> rfl
      | cons piece pieces => exact ⟨(d :: piece) :: pieces, last, hcons⟩

theorem splitOn_append_of_notMem {c : α} {s : List α} (hs : c ∉ s) (t : List α) :
    (s ++ t).splitOn c = (t.splitOn c).modifyHead (s ++ ·) := by
  induction s with
  | nil =>
    rw [List.nil_append]
    cases t.splitOn c <;> rfl
  | cons d s ih =>
    rw [List.mem_cons, not_or] at hs
    rw [List.cons_append, List.splitOn_cons_eq_if_modifyHead, if_neg (by simpa using Ne.symm hs.1),
      ih hs.2, List.modifyHead_modifyHead]
    rfl

/-! ### Putting pieces together -/

/-- Pieces that each end in a character, and what follows them up to the next one. -/
theorem splitOn_flatMap_ended_append {c : α} {ps : List (List α)} {last : List α}
    (hps : ∀ p ∈ ps, c ∉ p) (hlast : c ∉ last) :
    ((ps.flatMap fun p ↦ p ++ [c]) ++ last).splitOn c = ps ++ [last] := by
  induction ps with
  | nil => exact List.splitOn_eq_singleton hlast
  | cons p ps ih =>
    have hp := hps p List.mem_cons_self
    rw [List.flatMap_cons, List.append_assoc, List.append_assoc, List.singleton_append,
      List.splitOn_append_cons_self, List.splitOn_eq_singleton hp,
      ih fun q hq ↦ hps q (List.mem_cons_of_mem p hq)]
    rfl

theorem splitOn_flatMap_ended {c : α} {ps : List (List α)} (hps : ∀ p ∈ ps, c ∉ p) :
    (ps.flatMap fun p ↦ p ++ [c]).splitOn c = ps ++ [[]] := by
  have hsplit := splitOn_flatMap_ended_append hps List.not_mem_nil
  rwa [List.append_nil] at hsplit

/-- Pieces that each end in a character can be read off the whole. -/
theorem flatMap_ended_inj {c : α} {ps qs : List (List α)} (hps : ∀ p ∈ ps, c ∉ p)
    (hqs : ∀ q ∈ qs, c ∉ q) (h : (ps.flatMap fun p ↦ p ++ [c]) = qs.flatMap fun q ↦ q ++ [c]) :
    ps = qs := by
  have hsplit := congrArg (List.splitOn c) h
  rwa [splitOn_flatMap_ended hps, splitOn_flatMap_ended hqs, List.append_left_inj] at hsplit

theorem splitOn_flatMap_begun {c : α} {ps : List (List α)} (hps : ∀ p ∈ ps, c ∉ p) :
    (ps.flatMap fun p ↦ c :: p).splitOn c = [] :: ps := by
  induction ps with
  | nil => exact List.splitOn_nil c
  | cons p ps ih =>
    have hp := hps p List.mem_cons_self
    rw [List.flatMap_cons, List.cons_append, List.splitOn_cons_eq_if_modifyHead,
      if_pos (beq_self_eq_true c), splitOn_append_of_notMem hp,
      ih fun q hq ↦ hps q (List.mem_cons_of_mem p hq), List.modifyHead_cons, List.append_nil]

/-- Pieces that each follow a character can be read off the whole as well. -/
theorem flatMap_begun_inj {c : α} {ps qs : List (List α)} (hps : ∀ p ∈ ps, c ∉ p)
    (hqs : ∀ q ∈ qs, c ∉ q) (h : (ps.flatMap fun p ↦ c :: p) = qs.flatMap fun q ↦ c :: q) :
    ps = qs := by
  have hsplit := congrArg (List.splitOn c) h
  rw [splitOn_flatMap_begun hps, splitOn_flatMap_begun hqs] at hsplit
  exact List.tail_eq_of_cons_eq hsplit

omit [BEq α] [LawfulBEq α] in
theorem notMem_intercalate {c : α} {separator : List α} {pieces : List (List α)}
    (hseparator : c ∉ separator) (hpieces : ∀ p ∈ pieces, c ∉ p) :
    c ∉ separator.intercalate pieces := by
  induction pieces with
  | nil => exact List.not_mem_nil
  | cons p pieces ih =>
    have hp := hpieces p List.mem_cons_self
    have hrest := ih fun q hq ↦ hpieces q (List.mem_cons_of_mem p hq)
    cases pieces with
    | nil => rwa [List.intercalate_singleton]
    | cons q pieces =>
      rw [List.intercalate_cons_cons, List.mem_append, List.mem_append]
      rintro ((h | h) | h)
      · exact hp h
      · exact hseparator h
      · exact hrest h

/-- A character that is in the separator once and in no piece counts the gaps. -/
theorem count_intercalate {c : α} {separator : List α}
    {pieces : List (List α)} (hseparator : separator.count c = 1) (hpieces : ∀ p ∈ pieces, c ∉ p) :
    (separator.intercalate pieces).count c = pieces.length - 1 := by
  induction pieces with
  | nil => rfl
  | cons p pieces ih =>
    have hp := List.count_eq_zero.mpr (hpieces p List.mem_cons_self)
    cases pieces with
    | nil => rwa [List.intercalate_singleton]
    | cons q pieces =>
      have hrest := ih fun r hr ↦ hpieces r (List.mem_cons_of_mem p hr)
      rw [List.intercalate_cons_cons, List.count_append, List.count_append, hp, hseparator, hrest]
      simp [Nat.add_comm]

end Bindery.Text
