import Bindery.Proofs.Identifier.Snake

/-!
# Joined acronyms are settled

Replacing an acronym could bring another one back that was replaced before: the segment of `CRC32`
ends in a digit with which `2D` begins. A table is in order (`InOrder`) if this happens nowhere. An
acronym can arise inside a segment, or where a segment ends and the text goes on; in the order of
the table, what goes on like this holds an acronym that was replaced before. So after every entry of
a table in order no acronym is left of the entries so far (`InOrder.absent`), and an entry that
holds an earlier acronym finds nothing (`joinAcronymsOf_of_held`). The table of acronyms is in order
(`inOrder_acronyms`), and so nothing is left to be joined in a name (`joinAcronyms_settled`).
-/

set_option autoImplicit false
set_option relaxedAutoImplicit false

namespace Bindery.Identifier

open Text

/-- No acronym of a table occurs in a text. -/
def Absent (table : List (List Char)) (s : List Char) : Prop :=
  ∀ acronym ∈ table, ¬ acronym <:+: s

/-- Replacing an acronym leaves none where the acronyms `done` are absent: neither it nor one of
these occurs in its segment or begins with the end of its segment, unless what goes on behind the
acronym holds one of these together with it. -/
def Settles (done : List (List Char)) (acronym : List Char) : Prop :=
  acronym ≠ [] ∧ ∀ other ∈ acronym :: done, '_' ∉ other ∧
    ¬ other <:+: acronym.map Char.toLower ∧
    ∀ n < other.length, other.take (n + 1) <:+ acronym.map Char.toLower →
      ∃ earlier ∈ done, earlier <:+: acronym ++ other.drop (n + 1)

instance (done : List (List Char)) (acronym : List Char) : Decidable (Settles done acronym) :=
  inferInstanceAs (Decidable (_ ∧ _))

/-- Every acronym of a table settles those before it and the acronyms `done`. -/
def InOrder : List (List Char) → List (List Char) → Prop
  | _, [] => True
  | done, acronym :: table => Settles done acronym ∧ InOrder (acronym :: done) table

instance decidableInOrder : (done table : List (List Char)) → Decidable (InOrder done table)
  | _, [] => inferInstanceAs (Decidable True)
  | done, acronym :: table =>
    have := decidableInOrder (acronym :: done) table
    inferInstanceAs (Decidable (_ ∧ _))

variable {done table : List (List Char)} {acronym s : List Char}

theorem Settles.absent (h : Settles done acronym) (hs : Absent done s) :
    Absent (acronym :: done) (replaceAll acronym (segment acronym) s) := by
  intro other hother hoccurs
  obtain ⟨hmark, hinside, hoverlap⟩ := h.2 other hother
  cases origin_of_infix_replaceAll h.1 hmark hoccurs with
  | old hold hstarts =>
    rcases List.mem_cons.mp hother with rfl | hdone
    · exact hstarts List.prefix_rfl
    · exact hs other hdone hold
  | image himage => exact hinside himage
  | @overlap last next hsplit hne hlast hnext =>
    obtain ⟨n, hn⟩ := Nat.exists_eq_add_one_of_ne_zero (mt List.length_eq_zero_iff.mp hne)
    have hlength : n < other.length := by
      rw [hsplit, List.length_append, hn]
      omega
    have htake : other.take (n + 1) = last := by rw [hsplit, ← hn, List.take_left]
    have hdrop : other.drop (n + 1) = next := by rw [hsplit, ← hn, List.drop_left]
    obtain ⟨earlier, hdone, hearlier⟩ := hoverlap n hlength (by rwa [htake])
    rw [hdrop] at hearlier
    exact hs earlier hdone (hearlier.trans hnext)

/-- After the whole table no acronym is left. -/
theorem InOrder.absent (h : InOrder done table) (hs : Absent done s) :
    Absent done (joinAcronymsOf table s) ∧ Absent table (joinAcronymsOf table s) := by
  induction table generalizing done s with
  | nil => exact ⟨hs, fun acronym hacronym ↦ nomatch hacronym⟩
  | cons acronym table ih =>
    obtain ⟨hdone, htable⟩ := ih h.2 (h.1.absent hs)
    obtain ⟨hacronym, hdone⟩ := List.forall_mem_cons.mp hdone
    exact ⟨hdone, List.forall_mem_cons.mpr ⟨hacronym, htable⟩⟩

theorem InOrder.of_append {later : List (List Char)} (h : InOrder done (table ++ later)) :
    InOrder done table := by
  induction table generalizing done with
  | nil => trivial
  | cons acronym table ih => exact ⟨h.1, ih h.2⟩

theorem joinAcronymsOf_append (table later : List (List Char)) (s : List Char) :
    joinAcronymsOf (table ++ later) s = joinAcronymsOf later (joinAcronymsOf table s) :=
  List.foldl_append

/-- An acronym that holds one from further up in the table is never found. -/
theorem joinAcronymsOf_of_held {earlier : List Char} {later : List (List Char)}
    (h : InOrder [] (table ++ acronym :: later)) (hearlier : earlier ∈ table)
    (hheld : earlier <:+: acronym) (s : List Char) :
    joinAcronymsOf (table ++ acronym :: later) s = joinAcronymsOf (table ++ later) s := by
  have habsent := (h.of_append.absent (s := s) fun _ hnone ↦ nomatch hnone).2
  have hnone : ¬ acronym <:+: joinAcronymsOf table s := fun hoccurs ↦
    habsent earlier hearlier (hheld.trans hoccurs)
  rw [joinAcronymsOf_append, joinAcronymsOf_append]
  change joinAcronymsOf later (replaceAll acronym (segment acronym) (joinAcronymsOf table s)) = _
  rw [replaceAll_of_absent hnone]

/-! ### The table -/

theorem inOrder_acronyms : InOrder [] acronyms := by decide +kernel

/-- The acronym of which `CW` is a part. -/
def heldAcronym : List Char := ['C', 'C', 'W']

theorem joinAcronymsOf_erase (name : List Char) :
    joinAcronymsOf (acronyms.erase heldAcronym) name = joinAcronyms name := by
  have hsplit : acronyms = acronyms.take 12 ++ heldAcronym :: acronyms.drop 13 := by decide
  have herase : acronyms.erase heldAcronym = acronyms.take 12 ++ acronyms.drop 13 := by decide
  have hearlier : ['C', 'W'] ∈ acronyms.take 12 := by decide
  have horder := inOrder_acronyms
  rw [hsplit] at horder
  rw [herase, ← joinAcronymsOf_of_held horder hearlier (by decide), ← hsplit, joinAcronyms]

/-- After every entry of the table no acronym up to this entry is left, so that joining acronyms
leaves none and joining them again changes nothing; and every name becomes the same without the
entry that holds an earlier one. -/
theorem joinAcronyms_settled (name : List Char) :
    (∀ n, ∀ acronym ∈ acronyms.take n,
      ¬ acronym <:+: joinAcronymsOf (acronyms.take n) name) ∧
    (∀ acronym ∈ acronyms, ¬ acronym <:+: joinAcronyms name) ∧
    joinAcronyms (joinAcronyms name) = joinAcronyms name ∧
    joinAcronymsOf (acronyms.erase heldAcronym) name = joinAcronyms name ∧
    lowercase (separateCapitals (joinAcronymsOf (acronyms.erase heldAcronym) name)) =
      snake name := by
  have hstage : ∀ n, Absent (acronyms.take n) (joinAcronymsOf (acronyms.take n) name) := by
    intro n
    have horder := inOrder_acronyms
    rw [← List.take_append_drop n acronyms] at horder
    exact (horder.of_append.absent fun _ hnone ↦ nomatch hnone).2
  have habsent : Absent acronyms (joinAcronyms name) := by
    have hall := hstage acronyms.length
    rwa [List.take_length] at hall
  refine ⟨hstage, habsent, joinAcronymsOf_of_absent habsent, joinAcronymsOf_erase name, ?_⟩
  rw [joinAcronymsOf_erase, snake]

/-- The digit at the end of `CRC32` is part of `2D`, which comes first. -/
example : joinAcronyms "CRC32D".toList = "CRC3_2d".toList := by decide

end Bindery.Identifier
