import Bindery.Diagnostic
import Bindery.Proofs.Text.Integer
import Bindery.Proofs.Text.Style
import Mathlib.Data.List.Induction

/-!
# The text of a diagnostic

A diagnostic keeps the notes of each kind in the order in which they were added, and of the
locations the last one alone (`build_eq`). So it is shown in the same way for any order of the notes
of different kinds: as the lines of `layout`, in colours or without (`format_build`). The colours
are styles, and deleting them leaves the text without colours.
-/

set_option autoImplicit false
set_option relaxedAutoImplicit false

namespace Bindery

open Text

namespace Note

inductive Kind
  | context
  | suggestion
  | location
  deriving DecidableEq

def kind : Note → Kind
  | .context _ => .context
  | .suggestion _ => .suggestion
  | .location _ => .location

def text : Note → String
  | .context text => text
  | .suggestion text => text
  | .location path => path

end Note

namespace Diagnostic

/-- The texts of the notes of one kind, in their order. -/
def textsOf (kind : Note.Kind) (notes : List Note) : List String :=
  (notes.filter (·.kind = kind)).map Note.text

/-- The same notes, in an order that differs only between notes of different kinds. -/
def SameOrder (notes others : List Note) : Prop :=
  ∀ kind, notes.filter (·.kind = kind) = others.filter (·.kind = kind)

/-! ### Adding notes -/

theorem textsOf_concat (kind : Note.Kind) (notes : List Note) (note : Note) :
    textsOf kind (notes ++ [note]) =
      textsOf kind notes ++ if note.kind = kind then [note.text] else [] := by
  rw [textsOf, List.filter_append, List.map_append, textsOf]
  split_ifs with hkind
  · rw [List.filter_cons_of_pos (by simpa using hkind)]
    rfl
  · rw [List.filter_cons_of_neg (by simpa using hkind)]
    rfl

/-- What a diagnostic holds after any notes. -/
theorem build_eq (severity : Severity) (message : String) (notes : List Note) :
    build severity message notes = ⟨severity, message, (textsOf .location notes).getLast?,
      textsOf .context notes, textsOf .suggestion notes⟩ := by
  induction notes using List.reverseRecOn with
  | nil => rfl
  | append_singleton notes note ih =>
    rw [build, List.foldl_append, ← build, ih, textsOf_concat, textsOf_concat, textsOf_concat]
    cases note with
    | context text => simp [add, Note.kind, Note.text]
    | suggestion text => simp [add, Note.kind, Note.text]
    | location path => simp [add, Note.kind, Note.text]

/-! ### Lines -/

/-- The first word of a diagnostic. -/
def heading (color : Bool) : Severity → String
  | .error => if color then "\x1b[1;31merror\x1b[0m" else "error"
  | .warning => if color then "\x1b[1;33mwarning\x1b[0m" else "warning"

/-- The first word in front of the suggestions. -/
def helpHeading (color : Bool) : String := if color then "\x1b[1;32mhelp\x1b[0m" else "help"

/-- An empty line, the line of the help, and the suggestions with their numbers, if there are any
suggestions. -/
def suggestionLines (color : Bool) (suggestions : List String) : List String :=
  if suggestions = [] then []
  else "" :: (helpHeading color ++ ": consider:") ::
    List.zipWith (fun number suggestion ↦ "  " ++ toString number ++ ". " ++ suggestion)
      (List.range' 1 suggestions.length) suggestions

/-- The lines of a diagnostic: the message, the last location, the context and the suggestions. -/
def layout (color : Bool) (severity : Severity) (message : String) (notes : List Note) :
    List String :=
  (heading color severity ++ ": " ++ message) ::
    ((textsOf .location notes).getLast?.toList.map ("  --> " ++ ·) ++
      (textsOf .context notes).map ("  = " ++ ·) ++
      suggestionLines color (textsOf .suggestion notes))

/-- The text of some lines. -/
def unlines (lines : List String) : String := String.join (lines.map (· ++ "\n"))

theorem unlines_append (first second : List String) :
    unlines (first ++ second) = unlines first ++ unlines second := by
  rw [unlines, List.map_append, String.join_append]
  rfl

theorem unlines_cons (line : String) (lines : List String) :
    unlines (line :: lines) = line ++ "\n" ++ unlines lines := by
  rw [unlines, List.map_cons, String.join_cons]
  rfl

theorem severityLabel_eq (color : Bool) (severity : Severity) :
    severityLabel color severity = heading color severity := by
  cases color with
  | false => cases severity <;> rfl
  | true => cases severity <;> rfl

/-- Counting from zero and adding one is counting from one. -/
theorem numbered_eq (suggestions : List String) :
    numbered suggestions = unlines (List.zipWith
      (fun number suggestion ↦ "  " ++ toString number ++ ". " ++ suggestion)
      (List.range' 1 suggestions.length) suggestions) := by
  have hone : List.range' 1 suggestions.length = (List.range' 0 suggestions.length).map (1 + ·) :=
    (List.map_add_range' (a := 1) 0 _ 1).symm
  rw [numbered, unlines, List.zipIdx_eq_zip_range', hone, List.zipWith_map_left,
    List.zipWith_comm, List.zip_eq_zipWith, List.map_zipWith, List.map_zipWith]
  simp [Nat.add_comm]

theorem unlines_map (mark : String) (texts : List String) :
    unlines (texts.map (mark ++ ·)) =
      String.join (texts.map fun text ↦ mark ++ text ++ "\n") := by
  rw [unlines, List.map_map]
  rfl

theorem unlines_suggestionLines (color : Bool) (suggestions : List String) :
    unlines (suggestionLines color suggestions) = if suggestions.isEmpty then ""
      else "\n" ++ paint color "32" "help" ++ ": consider:\n" ++ numbered suggestions := by
  cases suggestions with
  | nil => rfl
  | cons suggestion suggestions =>
    have hhelp : helpHeading color = paint color "32" "help" := by
      cases color with
      | false => rfl
      | true => rfl
    rw [suggestionLines, if_neg (List.cons_ne_nil _ _), unlines_cons, unlines_cons, ← numbered_eq,
      hhelp]
    simp [String.append_assoc]

/-- A diagnostic is shown as its lines. -/
theorem format_build_eq (color : Bool) (severity : Severity) (message : String)
    (notes : List Note) :
    (build severity message notes).format color =
      unlines (layout color severity message notes) := by
  rw [build_eq, format, layout, unlines_cons, unlines_append, unlines_append, severityLabel_eq,
    unlines_suggestionLines, unlines_map, unlines_map]
  simp only [String.append_assoc]
  cases (textsOf .location notes).getLast? with
  | none => rfl
  | some path => simp

/-! ### Colours -/

theorem shows_unlines {styled shown : List String} (h : List.Forall₂ Shows styled shown) :
    Shows (unlines styled) (unlines shown) := by
  induction h with
  | nil => exact shows_self (by decide)
  | cons hline _ ih =>
    rw [unlines_cons, unlines_cons]
    exact (hline.append (shows_self (by decide))).append ih

theorem shows_heading (severity : Severity) :
    Shows (heading true severity) (heading false severity) := by
  cases severity with
  | error => exact shows_styled "1;31" "error" (by decide) (by decide)
  | warning => exact shows_styled "1;33" "warning" (by decide) (by decide)

theorem shows_helpHeading : Shows (helpHeading true) (helpHeading false) :=
  shows_styled "1;32" "help" (by decide) (by decide)

theorem forall₂_suggestionLines {suggestions : List String}
    (hsuggestions : ∀ text ∈ suggestions, Plain text) :
    List.Forall₂ Shows (suggestionLines true suggestions) (suggestionLines false suggestions) := by
  unfold suggestionLines
  split_ifs
  · exact .nil
  · refine .cons (shows_self (by decide)) (.cons ?_ (List.forall₂_same.mpr fun line hline ↦ ?_))
    · exact shows_helpHeading.append (shows_self (by decide))
    · rw [← List.map_uncurry_zip_eq_zipWith] at hline
      obtain ⟨⟨number, text⟩, hmem, rfl⟩ := List.mem_map.mp hline
      have htext := hsuggestions text (List.of_mem_zip hmem).2
      have hspace : Plain "  " := by decide
      have hdot : Plain ". " := by decide
      exact shows_self (((hspace.append (plain_toString number)).append hdot).append htext)

/-- The lines with colours show the lines without. -/
theorem forall₂_layout (severity : Severity) {message : String} {notes : List Note}
    (hmessage : Plain message) (hnotes : ∀ note ∈ notes, Plain note.text) :
    List.Forall₂ Shows (layout true severity message notes)
      (layout false severity message notes) := by
  have htexts : ∀ kind, ∀ text ∈ textsOf kind notes, Plain text := by
    intro kind text htext
    obtain ⟨note, hnote, rfl⟩ := List.mem_map.mp htext
    exact hnotes note (List.mem_of_mem_filter hnote)
  have hmarked : ∀ (mark : String) (texts : List String), Plain mark →
      (∀ text ∈ texts, Plain text) → ∀ line ∈ texts.map (mark ++ ·), Shows line line := by
    intro mark texts hmark hplain line hline
    obtain ⟨text, htext, rfl⟩ := List.mem_map.mp hline
    exact shows_self (hmark.append (hplain text htext))
  have hlocation : ∀ path ∈ (textsOf .location notes).getLast?.toList, Plain path := by
    intro path hpath
    exact htexts .location path (List.mem_of_mem_getLast? (Option.mem_toList.mp hpath))
  refine .cons ?_ (List.rel_append (List.rel_append ?_ ?_) ?_)
  · exact ((shows_heading severity).append (shows_self (by decide))).append (shows_self hmessage)
  · exact List.forall₂_same.mpr (hmarked _ _ (by decide) hlocation)
  · exact List.forall₂_same.mpr (hmarked _ _ (by decide) (htexts .context))
  · exact forall₂_suggestionLines (htexts .suggestion)

/-- A diagnostic is shown as the line of its message, the last location, the context in the order in
which it was added and, if there are suggestions, an empty line, the line of the help and the
suggestions with numbers from one. So the order of notes of different kinds does not matter, and in
plain notes nothing but styles is added by colours. -/
theorem format_build (severity : Severity) (message : String) (notes : List Note) :
    (∀ color, (build severity message notes).format color =
      unlines (layout color severity message notes)) ∧
    (∀ others, SameOrder others notes → ∀ color,
      (build severity message others).format color =
        (build severity message notes).format color) ∧
    (Plain message → (∀ note ∈ notes, Plain note.text) →
      unstyled ((build severity message notes).format true).toList =
        ((build severity message notes).format false).toList) := by
  refine ⟨fun color ↦ format_build_eq color severity message notes, fun others hothers color ↦ ?_,
    fun hmessage hnotes ↦ ?_⟩
  · have htexts : ∀ kind, textsOf kind others = textsOf kind notes := fun kind ↦
      congrArg (List.map Note.text) (hothers kind)
    rw [build_eq, build_eq, htexts, htexts, htexts]
  · rw [format_build_eq, format_build_eq]
    exact (shows_unlines (forall₂_layout severity hmessage hnotes)).unstyled_eq

/-- Two locations, of which the last one counts, between two suggestions and a line of context. -/
def mixedNotes : List Note :=
  [.suggestion "Run raylib_parser", .location "old.json", .context "module raygui",
   .location "raygui_api.json", .suggestion "Fix the job path"]

/-- The same notes, kind by kind. -/
def sortedNotes : List Note :=
  [.location "old.json", .location "raygui_api.json", .context "module raygui",
   .suggestion "Run raylib_parser", .suggestion "Fix the job path"]

theorem format_build_mixedNotes :
    SameOrder sortedNotes mixedNotes ∧ Plain "no description" ∧
      (∀ note ∈ mixedNotes, Plain note.text) ∧
      (build .error "no description" sortedNotes).format true =
        (build .error "no description" mixedNotes).format true ∧
      (build .error "no description" mixedNotes).format false =
        "error: no description\n  --> raygui_api.json\n  = module raygui\n" ++
          "\nhelp: consider:\n  1. Run raylib_parser\n  2. Fix the job path\n" ∧
      unstyled ((build .error "no description" mixedNotes).format true).toList =
        ((build .error "no description" mixedNotes).format false).toList := by
  have hmessage : Plain "no description" := by decide
  have hplain : ∀ note ∈ mixedNotes, Plain note.text := by decide
  have horder : SameOrder sortedNotes mixedNotes := by
    intro kind
    cases kind with
    | context => rfl
    | suggestion => rfl
    | location => rfl
  obtain ⟨hlines, hordered, hstyles⟩ := format_build .error "no description" mixedNotes
  refine ⟨horder, hmessage, hplain, hordered _ horder true, ?_, hstyles hmessage hplain⟩
  rw [hlines]
  decide +kernel

end Diagnostic

end Bindery
