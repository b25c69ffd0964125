import Bindery.Text.Blank
import Mathlib.Tactic.SplitIfs

/-!
# Trimmed text and words

What `trim` and `words` do to a text that is put together from pieces. `Spaced` relates words to a
text that has them with blanks in between; `words` finds the words of such a text
(`words_of_spaced`), and every text that is not blank is one up to blanks at its ends
(`exists_spaced_words`).
-/

set_option autoImplicit false
set_option relaxedAutoImplicit false

namespace Bindery.Text

/-- A text of blanks. -/
def Blanks (s : List Char) : Prop := ∀ c ∈ s, isBlank c = true

/-- A text that is not empty and has no blanks. -/
def Solid (s : List Char) : Prop := s ≠ [] ∧ ∀ c ∈ s, isBlank c = false

/-- A text that consists of some words with blanks between any two neighbours. -/
inductive Spaced : List (List Char) → List Char → Prop
  | word (w : List Char) : Spaced [w] w
  | cons {w gap s : List Char} {ws : List (List Char)} (hgap : gap ≠ []) (hblanks : Blanks gap)
      (hrest : Spaced ws s) : Spaced (w :: ws) (w ++ gap ++ s)

theorem Blanks.nil : Blanks [] := fun _ h ↦ nomatch h

theorem Blanks.append {s t : List Char} (hs : Blanks s) (ht : Blanks t) : Blanks (s ++ t) :=
  fun c hc ↦ (List.mem_append.mp hc).elim (hs c) (ht c)

theorem Blanks.notMem {s : List Char} (hs : Blanks s) {c : Char} (hc : isBlank c = false) : c ∉ s :=
  fun hmem ↦ absurd ((hs c hmem).symm.trans hc) (by decide)

theorem Blanks.takeWhile (s : List Char) : Blanks (s.takeWhile isBlank) := by
  intro c hc
  exact List.all_eq_true.mp List.all_takeWhile c hc

/-! ### Scanning -/

/-- A scan for characters with a property stops at the first one without it. -/
theorem takeWhile_append_of_head? {p : Char → Bool} {s t : List Char} (hs : ∀ c ∈ s, p c = true)
    (ht : ∀ c ∈ t.head?, p c = false) : (s ++ t).takeWhile p = s := by
  rw [List.takeWhile_append_of_pos hs]
  cases t with
  | nil => exact List.append_nil s
  | cons c t => rw [List.takeWhile_cons_of_neg (by simp [ht c rfl]), List.append_nil]

theorem dropWhile_append_of_head? {p : Char → Bool} {s t : List Char} (hs : ∀ c ∈ s, p c = true)
    (ht : ∀ c ∈ t.head?, p c = false) : (s ++ t).dropWhile p = t := by
  rw [List.dropWhile_append_of_pos hs]
  cases t with
  | nil => rfl
  | cons c t => exact List.dropWhile_cons_of_neg (by simp [ht c rfl])

/-- A scan for one character stops at the first place where it is. -/
theorem takeWhile_ne_append {c : Char} {s t : List Char} (hs : c ∉ s) (ht : ∀ d ∈ t.head?, d = c) :
    (s ++ t).takeWhile (· ≠ c) = s :=
  takeWhile_append_of_head? (fun _ hd ↦ decide_eq_true fun h ↦ hs (h ▸ hd))
    fun d hd ↦ decide_eq_false (not_not_intro (ht d hd))

theorem dropWhile_ne_append {c : Char} {s t : List Char} (hs : c ∉ s) (ht : ∀ d ∈ t.head?, d = c) :
    (s ++ t).dropWhile (· ≠ c) = t :=
  dropWhile_append_of_head? (fun _ hd ↦ decide_eq_true fun h ↦ hs (h ▸ hd))
    fun d hd ↦ decide_eq_false (not_not_intro (ht d hd))

/-! ### Trimming -/

theorem trimStart_append {l : List Char} (hl : Blanks l) (s : List Char) :
    trimStart (l ++ s) = trimStart s :=
  List.dropWhile_append_of_pos hl

theorem trimStart_of_head? {s : List Char} (hs : ∀ c ∈ s.head?, isBlank c = false) :
    trimStart s = s :=
  dropWhile_append_of_head? Blanks.nil hs

theorem trimStart_cons {c : Char} (hc : isBlank c = false) (s : List Char) :
    trimStart (c :: s) = c :: s :=
  List.dropWhile_cons_of_neg (by simp [hc])

theorem trimEnd_append {r : List Char} (hr : Blanks r) (s : List Char) :
    trimEnd (s ++ r) = trimEnd s := by
  rw [trimEnd, List.reverse_append, List.dropWhile_append_of_pos, trimEnd]
  exact fun c hc ↦ hr c (List.mem_reverse.mp hc)

/-- Trimming stops in front of a character that is not a blank. -/
theorem trimEnd_append_cons (s t : List Char) {c : Char} (hc : isBlank c = false) :
    trimEnd (s ++ c :: t) = s ++ c :: trimEnd t := by
  rw [trimEnd, List.reverse_append, List.reverse_cons, List.append_assoc, List.dropWhile_append]
  split_ifs with ht
  · have hall : trimEnd t = [] := by
      rw [trimEnd, List.isEmpty_iff.mp ht, List.reverse_nil]
    rw [List.singleton_append, List.dropWhile_cons_of_neg (by simp [hc]), hall]
    simp
  · rw [List.reverse_append, trimEnd]
    simp

theorem exists_append_trimStart (s : List Char) : ∃ l, Blanks l ∧ s = l ++ trimStart s :=
  ⟨s.takeWhile isBlank, .takeWhile s, List.takeWhile_append_dropWhile.symm⟩

theorem exists_trimEnd_append (s : List Char) : ∃ r, Blanks r ∧ s = trimEnd s ++ r := by
  obtain ⟨l, hl, hs⟩ := exists_append_trimStart s.reverse
  refine ⟨l.reverse, fun c hc ↦ hl c (List.mem_reverse.mp hc), ?_⟩
  have hreverse := congrArg List.reverse hs
  rwa [List.reverse_reverse, List.reverse_append] at hreverse

/-- A text is its trimmed form between blanks. -/
theorem exists_trim (s : List Char) : ∃ l r, Blanks l ∧ Blanks r ∧ s = l ++ trim s ++ r := by
  obtain ⟨l, hl, hstart⟩ := exists_append_trimStart s
  obtain ⟨r, hr, hend⟩ := exists_trimEnd_append (trimStart s)
  refine ⟨l, r, hl, hr, ?_⟩
  rw [List.append_assoc, trim, ← hend, ← hstart]

theorem trim_of_blanks {s : List Char} (hs : Blanks s) : trim s = [] := by
  have hstart := trimStart_append hs []
  rw [List.append_nil] at hstart
  rw [trim, hstart]
  rfl

/-- Trimming takes the blanks at both ends off a text that neither starts nor ends with one. -/
theorem trim_append_append {l s r : List Char} (hl : Blanks l) (hr : Blanks r)
    (hfirst : ∀ c ∈ s.head?, isBlank c = false) (hlast : ∀ c ∈ s.getLast?, isBlank c = false) :
    trim (l ++ s ++ r) = s := by
  rcases List.eq_nil_or_concat s with rfl | ⟨t, c, rfl⟩
  · rw [List.append_nil]
    exact trim_of_blanks (hl.append hr)
  · rw [List.concat_eq_append] at hfirst hlast ⊢
    have hc : isBlank c = false := hlast c (by simp)
    have hstart : trimStart (t ++ [c] ++ r) = t ++ [c] ++ r := by
      refine trimStart_of_head? fun d hd ↦ hfirst d ?_
      cases t <;> simpa using hd
    rw [trim, List.append_assoc l, trimStart_append hl, hstart, trimEnd_append hr,
      trimEnd_append_cons t [] hc]
    rfl

/-! ### Pieces and words -/

/-- Texts are divided as lists are. -/
theorem splitBy_eq_splitOnP (p : Char → Bool) (s : List Char) : splitBy p s = s.splitOnP p := by
  induction s with
  | nil => exact List.splitOnP_nil.symm
  | cons c s ih =>
    rw [splitBy, List.splitOnP_cons_eq_if_modifyHead, ih]
    split_ifs
    · rfl
    · cases hs : s.splitOnP p with
      | nil => exact absurd hs (List.splitOnP_ne_nil p s)
      | cons piece pieces => rfl

@[simp] theorem words_nil : words [] = [] := rfl

/-- The words of a text are those on both sides of any of its blanks. -/
theorem words_append_cons {c : Char} (hc : isBlank c = true) (s t : List Char) :
    words (s ++ c :: t) = words s ++ words t := by
  rw [words, splitBy_eq_splitOnP, List.splitOnP_append_cons s t hc, List.filter_append, words,
    words, splitBy_eq_splitOnP, splitBy_eq_splitOnP]

theorem words_of_solid {w : List Char} (hw : Solid w) : words w = [w] := by
  rw [words, splitBy_eq_splitOnP, List.splitOnP_eq_singleton hw.2]
  simpa using hw.1

theorem words_append_left {l : List Char} (hl : Blanks l) (s : List Char) :
    words (l ++ s) = words s := by
  induction l with
  | nil => rfl
  | cons c l ih =>
    have hrest : Blanks l := fun d hd ↦ hl d (List.mem_cons_of_mem c hd)
    have hword := words_append_cons (hl c List.mem_cons_self) [] (l ++ s)
    rw [List.cons_append]
    exact hword.trans (ih hrest)

theorem words_of_blanks {s : List Char} (hs : Blanks s) : words s = [] := by
  simpa using words_append_left hs []

theorem words_append_right {r : List Char} (hr : Blanks r) (s : List Char) :
    words (s ++ r) = words s := by
  cases r with
  | nil => rw [List.append_nil]
  | cons c r =>
    have hrest : Blanks r := fun d hd ↦ hr d (List.mem_cons_of_mem c hd)
    rw [words_append_cons (hr c List.mem_cons_self), words_of_blanks hrest, List.append_nil]

theorem words_trim (s : List Char) : words (trim s) = words s := by
  obtain ⟨l, r, hl, hr, hs⟩ := exists_trim s
  conv => rhs; rw [hs, List.append_assoc, words_append_left hl, words_append_right hr]

/-- The words that a text has with blanks in between are its words. -/
theorem words_of_spaced {ws : List (List Char)} {s : List Char} (hs : Spaced ws s)
    (hws : ∀ w ∈ ws, Solid w) : words s = ws := by
  induction hs with
  | word w => exact words_of_solid (hws w List.mem_cons_self)
  | @cons w gap s ws hgap hblanks _ ih =>
    obtain ⟨c, gap, rfl⟩ := List.exists_cons_of_ne_nil hgap
    have hrest : Blanks gap := fun d hd ↦ hblanks d (List.mem_cons_of_mem c hd)
    rw [List.append_assoc, List.cons_append, words_append_cons (hblanks c List.mem_cons_self),
      words_append_left hrest, words_of_solid (hws w List.mem_cons_self),
      ih fun v hv ↦ hws v (List.mem_cons_of_mem w hv), List.singleton_append]

/-- A text with blanks between solid words starts with no blank. -/
theorem Spaced.exists_cons {ws : List (List Char)} {s : List Char} (hs : Spaced ws s)
    (hws : ∀ w ∈ ws, Solid w) : ∃ c t, s = c :: t ∧ isBlank c = false := by
  cases hs with
  | word =>
    obtain ⟨hne, hsolid⟩ := hws s List.mem_cons_self
    obtain ⟨c, t, rfl⟩ := List.exists_cons_of_ne_nil hne
    exact ⟨c, t, rfl, hsolid c List.mem_cons_self⟩
  | @cons w gap s ws _ _ _ =>
    obtain ⟨hne, hsolid⟩ := hws w List.mem_cons_self
    obtain ⟨c, t, rfl⟩ := List.exists_cons_of_ne_nil hne
    exact ⟨c, t ++ gap ++ s, by simp, hsolid c List.mem_cons_self⟩

/-- A text with blanks between solid words ends with no blank. -/
theorem Spaced.exists_append_singleton {ws : List (List Char)} {s : List Char} (hs : Spaced ws s)
    (hws : ∀ w ∈ ws, Solid w) : ∃ t c, s = t ++ [c] ∧ isBlank c = false := by
  induction hs with
  | word w =>
    obtain ⟨hne, hsolid⟩ := hws w List.mem_cons_self
    obtain ⟨t, c, rfl⟩ := List.eq_nil_or_concat w |>.resolve_left hne
    exact ⟨t, c, List.concat_eq_append, hsolid c (by simp)⟩
  | @cons w gap s ws _ _ _ ih =>
    obtain ⟨t, c, rfl, hc⟩ := ih fun v hv ↦ hws v (List.mem_cons_of_mem w hv)
    exact ⟨w ++ gap ++ t, c, by simp, hc⟩

/-- Trimming a text that goes on behind its words leaves them in front of the trimmed rest. -/
theorem trim_append_spaced_append {ws : List (List Char)} {l s rest : List Char} (hl : Blanks l)
    (hs : Spaced ws s) (hws : ∀ w ∈ ws, Solid w) : trim (l ++ s ++ rest) = s ++ trimEnd rest := by
  obtain ⟨first, _, hfirst, hsolid⟩ := hs.exists_cons hws
  have hstart : trimStart (s ++ rest) = s ++ rest := by
    rw [hfirst, List.cons_append]
    exact trimStart_cons hsolid _
  obtain ⟨t, c, rfl, hc⟩ := hs.exists_append_singleton hws
  rw [trim, List.append_assoc l, trimStart_append hl, hstart, List.append_assoc,
    List.singleton_append, trimEnd_append_cons t rest hc, List.append_assoc, List.singleton_append]

theorem words_solid_append {w rest : List Char} (hw : Solid w)
    (hrest : ∀ c ∈ rest.head?, isBlank c = true) : words (w ++ rest) = w :: words rest := by
  cases rest with
  | nil => rw [List.append_nil, words_of_solid hw, words_nil]
  | cons c rest =>
    have hc := hrest c rfl
    have hskip := words_append_cons hc [] rest
    rw [List.nil_append, words_nil, List.nil_append] at hskip
    rw [words_append_cons hc, words_of_solid hw, hskip, List.singleton_append]

/-- A text that is not blank is blanks, a word, and a rest that goes on with a blank. -/
theorem exists_first_word {s : List Char} (hs : ¬ Blanks s) :
    ∃ l w rest, Blanks l ∧ Solid w ∧ (∀ c ∈ rest.head?, isBlank c = true) ∧
      s = l ++ (w ++ rest) := by
  obtain ⟨l, hl, hsplit⟩ := exists_append_trimStart s
  cases hstart : trimStart s with
  | nil =>
    rw [hstart, List.append_nil] at hsplit
    exact absurd (hsplit ▸ hl) hs
  | cons c t =>
    have hc : isBlank c = false := by
      have hhead := List.head?_dropWhile_not isBlank s
      rw [← trimStart, hstart] at hhead
      simpa using hhead
    refine ⟨l, (c :: t).takeWhile (!isBlank ·), (c :: t).dropWhile (!isBlank ·), hl, ⟨?_, ?_⟩,
      ?_, ?_⟩
    · simp [hc]
    · intro d hd
      simpa using List.all_eq_true.mp List.all_takeWhile d hd
    · intro d hd
      have hhead := List.head?_dropWhile_not (!isBlank ·) (c :: t)
      rw [Option.mem_def.mp hd] at hhead
      simpa using hhead
    · rw [List.takeWhile_append_dropWhile, ← hstart]
      exact hsplit

/-- A text is blank, or it is its words with blanks in between and at the ends. -/
theorem exists_spaced_words (s : List Char) : Blanks s ∨
    ∃ l body r, Blanks l ∧ Blanks r ∧ s = l ++ body ++ r ∧ Spaced (words s) body ∧
      ∀ w ∈ words s, Solid w := by
  induction hn : s.length using Nat.strongRecOn generalizing s with
  | _ n ih =>
    by_cases hs : Blanks s
    · exact .inl hs
    obtain ⟨l, w, rest, hl, hw, hrest, rfl⟩ := exists_first_word hs
    have hwords : words (l ++ (w ++ rest)) = w :: words rest := by
      rw [words_append_left hl, words_solid_append hw hrest]
    have hshort : rest.length < n := by
      have hpos := List.length_pos_iff.mpr hw.1
      simp only [List.length_append] at hn
      omega
    rw [hwords]
    right
    rcases ih _ hshort rest rfl with hblank | ⟨gap, body, r, hgap, hr, hsplit, hbody, hsolid⟩
    · refine ⟨l, w, rest, hl, hblank, by simp, ?_, ?_⟩
      · rw [words_of_blanks hblank]
        exact .word w
      · rw [words_of_blanks hblank]
        simpa using hw
    · -- the rest starts with a blank and its words do not, so there is a gap
      have hne : gap ≠ [] := by
        rintro rfl
        obtain ⟨c, t, rfl, hc⟩ := hbody.exists_cons hsolid
        rw [hrest c (by rw [hsplit]; rfl)] at hc
        exact nomatch hc
      refine ⟨l, w ++ gap ++ body, r, hl, hr, ?_, .cons hne hgap hbody, ?_⟩
      · conv => lhs; rw [hsplit]
        simp
      · intro v hv
        rcases List.mem_cons.mp hv with rfl | hv
        · exact hw
        · exact hsolid v hv

theorem words_eq_nil_iff {s : List Char} : words s = [] ↔ Blanks s := by
  refine ⟨fun h ↦ ?_, words_of_blanks⟩
  rcases exists_spaced_words s with hblank | ⟨_, _, _, _, _, _, hbody, _⟩
  · exact hblank
  · rw [h] at hbody
    exact nomatch hbody

theorem head?_trim (s : List Char) : ∀ c ∈ (trim s).head?, isBlank c = false := by
  intro c hc
  have hhead := List.head?_dropWhile_not isBlank s
  rw [← trimStart] at hhead
  obtain ⟨r, -, hsplit⟩ := exists_trimEnd_append (trimStart s)
  rw [hsplit, ← trim] at hhead
  cases htrim : trim s with
  | nil =>
    rw [htrim] at hc
    exact nomatch hc
  | cons d t =>
    rw [htrim, Option.mem_def, List.head?_cons] at hc
    rw [htrim, List.cons_append, List.head?_cons] at hhead
    cases hc
    exact hhead

theorem getLast?_trim (s : List Char) : ∀ c ∈ (trim s).getLast?, isBlank c = false := by
  intro c hc
  rw [trim, trimEnd, List.getLast?_reverse] at hc
  have hhead := List.head?_dropWhile_not isBlank (trimStart s).reverse
  rw [Option.mem_def.mp hc] at hhead
  exact hhead

theorem trim_trim (s : List Char) : trim (trim s) = trim s := by
  simpa using trim_append_append Blanks.nil Blanks.nil (head?_trim s) (getLast?_trim s)

/-- A trimmed text starts with its first word. -/
theorem exists_append_of_head?_words {s w : List Char} (hw : (words s).head? = some w) :
    ∃ rest, trim s = w ++ rest ∧ ∀ c ∈ rest.head?, isBlank c = true := by
  have hs : ¬ Blanks (trim s) := by
    intro hblank
    rw [← words_trim s, words_of_blanks hblank] at hw
    exact nomatch hw
  obtain ⟨l, v, rest, hl, hv, hrest, hsplit⟩ := exists_first_word hs
  have hnil : l = [] := by
    cases l with
    | nil => rfl
    | cons c l =>
      have hc := head?_trim s c (by rw [hsplit]; rfl)
      rw [hl c List.mem_cons_self] at hc
      exact nomatch hc
  subst hnil
  rw [← words_trim s, hsplit, List.nil_append, words_solid_append hv hrest] at hw
  cases hw
  exact ⟨rest, hsplit, hrest⟩

end Bindery.Text
