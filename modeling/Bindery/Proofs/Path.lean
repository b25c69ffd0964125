import Bindery.Path
import Bindery.Proofs.Text.Pieces
import Mathlib.Data.List.DropRight

/-!
# Paths and their names

The segments of a path are read off its text and put together again (`segments_intercalate`,
`intercalate_segments`). The parent of a path is a beginning of it, in characters and in names
(`toList_parent?_prefix`, `names_parent?_prefix`); where the names hold no `.`, it has all of them
but the last (`exists_names_of_parent?`).
-/

set_option autoImplicit false
set_option relaxedAutoImplicit false

namespace Bindery.Path

/-- A path from the working directory whose names are all names of entries. -/
def IsPlain (path : String) : Prop :=
  isAbsolute path = false ∧ ∀ name ∈ names path, name ≠ "." ∧ name ≠ ".."

instance (path : String) : Decidable (IsPlain path) := inferInstanceAs (Decidable (_ ∧ _))

/-- Neither of two paths is the other or leads through it. -/
def Apart (path other : String) : Prop :=
  ¬ names path <+: names other ∧ ¬ names other <+: names path

instance (path other : String) : Decidable (Apart path other) := inferInstanceAs (Decidable (_ ∧ _))

theorem Apart.symm {path other : String} (h : Apart path other) : Apart other path := ⟨h.2, h.1⟩

/-! ### Segments -/

theorem segments_eq_splitOn (path : String) :
    segments path = (path.toList.splitOn '/').map String.ofList := by
  rw [segments, Text.splitBy_eq_splitOnP, List.splitOn_eq_splitOnP]
  rfl

theorem segments_ne_nil (path : String) : segments path ≠ [] := by
  simp [segments_eq_splitOn]

theorem slash_notMem_of_mem_segments {path segment : String} (h : segment ∈ segments path) :
    '/' ∉ segment.toList := by
  rw [segments_eq_splitOn] at h
  obtain ⟨piece, hpiece, rfl⟩ := List.mem_map.mp h
  rw [String.toList_ofList]
  exact Text.notMem_of_mem_splitOn hpiece

theorem intercalate_segments (path : String) : "/".intercalate (segments path) = path := by
  have hid : String.toList ∘ String.ofList = id := funext fun s ↦ String.toList_ofList
  rw [← String.toList_inj, String.toList_intercalate, segments_eq_splitOn, List.map_map, hid,
    List.map_id]
  exact List.intercalate_splitOn '/'

theorem segments_intercalate {pieces : List String} (hpieces : pieces ≠ [])
    (hslash : ∀ piece ∈ pieces, '/' ∉ piece.toList) :
    segments ("/".intercalate pieces) = pieces := by
  have hsplit : (['/'].intercalate (pieces.map String.toList)).splitOn '/' =
      pieces.map String.toList :=
    List.splitOn_intercalate '/' (List.forall_mem_map.mpr hslash) (by simpa using hpieces)
  have hid : String.ofList ∘ String.toList = id := funext fun s ↦ String.ofList_toList
  rw [segments_eq_splitOn, String.toList_intercalate]
  change (List.splitOn '/' (['/'].intercalate _)).map _ = _
  rw [hsplit, List.map_map, hid, List.map_id]

/-! ### Names -/

theorem names_eq_filter (path : String) :
    names path = (segments path).filter fun segment ↦ segment ≠ "" := rfl

theorem names_intercalate {pieces : List String} (hpieces : pieces ≠ [])
    (hslash : ∀ piece ∈ pieces, '/' ∉ piece.toList) :
    names ("/".intercalate pieces) = pieces.filter fun piece ↦ piece ≠ "" := by
  rw [names_eq_filter, segments_intercalate hpieces hslash]

/-- The first segment of a path is empty just where the path starts at the top, or is empty. -/
theorem isAbsolute_intercalate_cons {first : String} {pieces : List String}
    (hslash : '/' ∉ first.toList) :
    isAbsolute ("/".intercalate (first :: pieces)) = decide (first = "" ∧ pieces ≠ []) := by
  rw [isAbsolute, String.toList_intercalate, List.map_cons]
  cases hfirst : first.toList with
  | nil =>
    have hempty : first = "" := String.toList_eq_nil_iff.mp hfirst
    cases pieces with
    | nil => simp
    | cons second pieces => simp [hempty, List.intercalate_cons_cons]
  | cons c rest =>
    have hc : c ≠ '/' := fun h ↦ hslash (by simp [hfirst, h])
    have hne : first ≠ "" := fun h ↦ by simp [h] at hfirst
    cases pieces with
    | nil => simp [hc, hne]
    | cons second pieces => simp [hc, hne, List.intercalate_cons_cons]

theorem intercalate_prefix {α : Type} (separator : List α) {front whole : List (List α)}
    (h : front <+: whole) : separator.intercalate front <+: separator.intercalate whole := by
  obtain ⟨rest, rfl⟩ := h
  induction front with
  | nil => exact List.nil_prefix
  | cons first front ih =>
    cases front with
    | nil =>
      cases rest with
      | nil => exact List.prefix_rfl
      | cons second rest =>
        rw [List.intercalate_singleton, List.singleton_append, List.intercalate_cons_cons,
          List.append_assoc]
        exact List.prefix_append _ _
    | cons second front =>
      rw [List.cons_append, List.cons_append, List.intercalate_cons_cons,
        List.intercalate_cons_cons]
      exact (List.prefix_append_right_inj _).mpr ih

/-! ### Parents -/

theorem dropIdle_eq_rdropWhile (segments : List String) :
    dropIdle segments = segments.rdropWhile isIdle := rfl

/-- What is dropped at the end is idle. -/
theorem exists_dropIdle_append (segments : List String) :
    ∃ idle, segments = dropIdle segments ++ idle ∧ ∀ segment ∈ idle, isIdle segment = true := by
  refine ⟨(segments.reverse.takeWhile isIdle).reverse, ?_, fun segment h ↦ ?_⟩
  · rw [dropIdle, ← List.reverse_append, List.takeWhile_append_dropWhile, List.reverse_reverse]
  · exact List.mem_takeWhile_imp (List.mem_reverse.mp h)

/-- The segments of a path that has a parent: those that the parent keeps, idle ones, one more, and
idle ones again. Where nothing is kept of a path from the working directory, the parent is empty. -/
theorem exists_segments_of_parent? {path parent : String} (h : parent? path = some parent) :
    (∃ first tail, segments path = first :: tail ∧ first ≠ "" ∧ parent = "" ∧
      ∀ segment ∈ tail, isIdle segment = true) ∨
    ∃ first kept gap last tail,
      segments path = first :: kept ++ gap ++ last :: tail ∧
      dropIdle kept = kept ∧ (∀ segment ∈ gap, isIdle segment = true) ∧ isIdle last = false ∧
      (∀ segment ∈ tail, isIdle segment = true) ∧
      parent = if first = "" ∧ kept = [] then "/" else "/".intercalate (first :: kept) := by
  unfold parent? at h
  cases hsegments : segments path with
  | nil => exact absurd hsegments (segments_ne_nil path)
  | cons first rest =>
    rw [hsegments] at h
    obtain ⟨tail, hrest, htail⟩ := exists_dropIdle_append rest
    cases hdrop : (dropIdle rest).reverse with
    | nil =>
      simp only [hdrop] at h
      rw [List.reverse_eq_nil_iff.mp hdrop, List.nil_append] at hrest
      split_ifs at h with hfirst
      exact .inl ⟨first, rest, rfl, hfirst, (Option.some.inj h).symm, hrest ▸ htail⟩
    | cons last front =>
      simp only [hdrop] at h
      obtain ⟨gap, hfront, hgap⟩ := exists_dropIdle_append front.reverse
      have hkept : dropIdle rest = front.reverse ++ [last] := by
        rw [← List.reverse_reverse (dropIdle rest), hdrop, List.reverse_cons]
      have hlast : isIdle last = false := by
        have hnot := List.rdropWhile_last_not isIdle rest
          (by rw [← dropIdle_eq_rdropWhile, hkept]; simp)
        simp only [← dropIdle_eq_rdropWhile, hkept, List.getLast_append_singleton] at hnot
        simpa using hnot
      refine .inr ⟨first, dropIdle front.reverse, gap, last, tail, ?_, ?_, hgap, hlast, htail, ?_⟩
      · rw [List.cons_append, List.cons_append, ← hfront, List.append_cons, ← hkept, ← hrest]
      · rw [dropIdle_eq_rdropWhile, dropIdle_eq_rdropWhile, List.rdropWhile_idempotent]
      · simp only [List.isEmpty_iff] at h
        split_ifs at h ⊢ with hroot <;> exact (Option.some.inj h).symm

theorem slash_notMem_kept {path first last : String} {kept gap tail : List String}
    (hsegments : segments path = first :: kept ++ gap ++ last :: tail) :
    ∀ piece ∈ first :: kept, '/' ∉ piece.toList := fun piece hpiece ↦
  have hmem : piece ∈ segments path := by
    rw [hsegments]
    exact List.mem_append_left _ (List.mem_append_left _ hpiece)
  slash_notMem_of_mem_segments hmem

/-- The names of what the parent keeps. -/
theorem names_kept {first : String} {kept : List String}
    (hslash : ∀ piece ∈ first :: kept, '/' ∉ piece.toList) :
    names (if first = "" ∧ kept = [] then "/" else "/".intercalate (first :: kept)) =
      (first :: kept).filter fun piece ↦ piece ≠ "" := by
  split_ifs with hroot
  · rw [hroot.1, hroot.2]
    decide
  · exact names_intercalate (List.cons_ne_nil _ _) hslash

theorem names_parent?_prefix {path parent : String} (h : parent? path = some parent) :
    names parent <+: names path := by
  rcases exists_segments_of_parent? h with
    ⟨first, tail, -, -, rfl, -⟩ | ⟨first, kept, gap, last, tail, hsegments, -, -, -, -, rfl⟩
  · exact List.nil_prefix
  · rw [names_kept (slash_notMem_kept hsegments), names_eq_filter path, hsegments,
      List.append_assoc, List.filter_append]
    exact List.prefix_append _ _

theorem isAbsolute_parent? {path parent : String} (h : parent? path = some parent) :
    isAbsolute parent = isAbsolute path := by
  rcases exists_segments_of_parent? h with
    ⟨first, tail, hsegments, hfirst, rfl, -⟩ |
      ⟨first, kept, gap, last, tail, hsegments, -, -, -, -, rfl⟩
  · have hmem : first ∈ segments path := hsegments ▸ List.mem_cons_self
    have hslash := slash_notMem_of_mem_segments hmem
    rw [← intercalate_segments path, hsegments, isAbsolute_intercalate_cons hslash]
    simp [hfirst, isAbsolute]
  · have hslash := slash_notMem_kept hsegments first List.mem_cons_self
    rw [← intercalate_segments path, hsegments, List.append_assoc, List.cons_append,
      isAbsolute_intercalate_cons hslash]
    split_ifs with hroot
    · simp [hroot.1, isAbsolute]
    · rw [isAbsolute_intercalate_cons hslash]
      by_cases hfirst : first = "" <;> simp_all

theorem toList_parent?_prefix {path parent : String} (h : parent? path = some parent) :
    parent.toList <+: path.toList := by
  have hwhole : path.toList = ['/'].intercalate ((segments path).map String.toList) := by
    conv_lhs => rw [← intercalate_segments path, String.toList_intercalate]
    rfl
  rcases exists_segments_of_parent? h with
    ⟨first, tail, -, -, rfl, -⟩ | ⟨first, kept, gap, last, tail, hsegments, -, -, -, -, rfl⟩
  · exact List.nil_prefix
  · rw [hwhole, hsegments, List.append_assoc, List.map_append]
    split_ifs with hroot
    · rw [hroot.1, hroot.2]
      cases gap <;> simp [List.intercalate_cons_cons]
    · rw [String.toList_intercalate]
      exact intercalate_prefix _ (List.prefix_append _ _)

/-- The parent of a path from the working directory does not end in a slash. -/
theorem endsInSlash_parent? {path parent : String} (hrelative : isAbsolute path = false)
    (h : parent? path = some parent) : endsInSlash parent = false := by
  have habsolute := (isAbsolute_parent? h).trans hrelative
  rcases exists_segments_of_parent? h with
    ⟨first, tail, -, -, rfl, -⟩ | ⟨first, kept, gap, last, tail, hsegments, hkept, -, -, -, rfl⟩
  · rfl
  · have hslash := slash_notMem_kept hsegments
    by_cases hroot : first = "" ∧ kept = []
    · rw [if_pos hroot] at habsolute
      exact absurd habsolute (by decide)
    rw [if_neg hroot] at habsolute ⊢
    -- The last segment that is kept is a text of its own, and it ends the path.
    obtain ⟨front, final, hfinal, hne⟩ :
        ∃ front final, first :: kept = front ++ [final] ∧ final ≠ "" := by
      rcases List.eq_nil_or_concat kept with rfl | ⟨front, final, rfl⟩
      · exact ⟨[], first, rfl, fun hfirst ↦ hroot ⟨hfirst, rfl⟩⟩
      · refine ⟨first :: front, final, by simp, fun hfinal ↦ ?_⟩
        have hlast := List.rdropWhile_last_not isIdle (front ++ [final])
          (by rw [← dropIdle_eq_rdropWhile, ← List.concat_eq_append, hkept]; simp)
        simp only [← dropIdle_eq_rdropWhile, ← List.concat_eq_append, hkept] at hlast
        simp [hfinal, isIdle] at hlast
    have hends : ∃ text, ("/".intercalate (first :: kept)).toList = text ++ final.toList := by
      rw [hfinal, String.toList_intercalate, List.map_append]
      clear hfinal
      induction front with
      | nil => exact ⟨[], by simp⟩
      | cons piece front ih =>
        obtain ⟨text, htext⟩ := ih
        cases front with
        | nil => exact ⟨piece.toList ++ ['/'], by simp [List.intercalate_cons_cons]⟩
        | cons second front =>
          refine ⟨piece.toList ++ ['/'] ++ text, ?_⟩
          rw [List.append_assoc, ← htext]
          simp [List.intercalate_cons_cons]
    obtain ⟨text, htext⟩ := hends
    have hnonempty : final.toList ≠ [] := fun hnil ↦ hne (String.toList_eq_nil_iff.mp hnil)
    rw [endsInSlash, htext, List.getLast?_append_of_ne_nil _ hnonempty, decide_eq_false_iff_not]
    intro hlast
    exact hslash final (by simp [hfinal]) (List.mem_of_getLast? hlast)

/-- The parent of a path without `.` has all its names but the last. -/
theorem exists_names_of_parent? {path parent : String} (hdot : "." ∉ names path)
    (h : parent? path = some parent) : ∃ last, names path = names parent ++ [last] := by
  have hidle : ∀ {idle : List String}, (∀ segment ∈ idle, isIdle segment = true) →
      idle ⊆ segments path → (idle.filter fun segment ↦ segment ≠ "") = [] := by
    intro idle hall hsub
    rw [List.filter_eq_nil_iff]
    intro segment hsegment hne
    have hmem : segment ∈ names path := by
      rw [names_eq_filter, List.mem_filter]
      exact ⟨hsub hsegment, hne⟩
    have hdotted : segment = "." := by
      have hcases := hall segment hsegment
      simp only [isIdle, Bool.or_eq_true, decide_eq_true_eq] at hcases
      exact hcases.resolve_left (by simpa using hne)
    exact hdot (hdotted ▸ hmem)
  rcases exists_segments_of_parent? h with
    ⟨first, tail, hsegments, hfirst, rfl, htail⟩ |
      ⟨first, kept, gap, last, tail, hsegments, -, hgap, hlast, htail, rfl⟩
  · refine ⟨first, ?_⟩
    have hnone := hidle htail (by rw [hsegments]; exact List.subset_cons_self _ _)
    rw [names_eq_filter path, hsegments, List.filter_cons_of_pos (by simpa using hfirst), hnone]
    rfl
  · refine ⟨last, ?_⟩
    have hgaps := hidle hgap (by rw [hsegments]; intro s hs; simp [hs])
    have htails := hidle htail (by rw [hsegments]; intro s hs; simp [hs])
    have hne : last ≠ "" := fun hempty ↦ by simp [hempty, isIdle] at hlast
    rw [names_kept (slash_notMem_kept hsegments), names_eq_filter path, hsegments,
      List.filter_append, List.filter_append, hgaps, List.append_nil]
    exact congrArg _ ((List.filter_cons_of_pos (by simpa using hne)).trans (congrArg _ htails))

/-- Only the empty path from the working directory has no parent. -/
theorem eq_empty_of_parent?_eq_none {path : String} (hrelative : isAbsolute path = false)
    (h : parent? path = none) : path = "" := by
  unfold parent? at h
  cases hsegments : segments path with
  | nil => exact absurd hsegments (segments_ne_nil path)
  | cons first rest =>
    have hmem : first ∈ segments path := hsegments ▸ List.mem_cons_self
    have hslash := slash_notMem_of_mem_segments hmem
    have habsolute : decide (first = "" ∧ rest ≠ []) = false := by
      rw [← isAbsolute_intercalate_cons hslash, ← hsegments, intercalate_segments, hrelative]
    have hempty : first = "" := by
      by_contra hfirst
      simp only [hsegments] at h
      cases hdrop : (dropIdle rest).reverse with
      | nil => simp [hdrop, hfirst] at h
      | cons last front => simp [hdrop, hfirst] at h
    have hrest : rest = [] := by simpa [hempty] using habsolute
    rw [← intercalate_segments path, hsegments, hempty, hrest]
    decide

/-- A plain path has a plain parent that is shorter and has all its names but the last, unless it
is empty. -/
theorem IsPlain.exists_parent? {path : String} (hplain : IsPlain path) (hpath : path ≠ "") :
    ∃ parent last, parent? path = some parent ∧ IsPlain parent ∧
      names path = names parent ++ [last] ∧ parent.length < path.length := by
  cases hparent : parent? path with
  | none => exact absurd (eq_empty_of_parent?_eq_none hplain.1 hparent) hpath
  | some parent =>
    obtain ⟨last, hnames⟩ := exists_names_of_parent? (fun hdot ↦ (hplain.2 _ hdot).1 rfl) hparent
    refine ⟨parent, last, rfl, ⟨(isAbsolute_parent? hparent).trans hplain.1, fun name hname ↦ ?_⟩,
      hnames, ?_⟩
    · exact hplain.2 name (by simp [hnames, hname])
    · have hbegins := toList_parent?_prefix hparent
      rw [← String.length_toList, ← String.length_toList]
      refine lt_of_le_of_ne hbegins.length_le fun hlength ↦ ?_
      rw [String.toList_injective (hbegins.eq_of_length hlength)] at hnames
      exact absurd hnames (by simp)

end Bindery.Path
