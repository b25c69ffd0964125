import Bindery.Proofs.Text.Integer
import Bindery.Proofs.Text.Pieces

/-!
# Styles

A terminal does not show a style, which is `ESC [`, numbers with semicolons between them, and `m`:
it changes how the text behind it looks. `unstyled` deletes the styles from a text, so it is what
the text says. A text shows another one (`Shows`) if the other one is left of it when styles are
deleted, whatever follows; this holds of a text that is put together if it holds of its parts.
-/

set_option autoImplicit false
set_option relaxedAutoImplicit false

namespace Bindery.Text

/-- The character that begins a style. -/
def escape : Char := '\x1b'

/-- The characters of the numbers of a style. -/
def isStyleChar (c : Char) : Bool := c.isDigit || c = ';'

/-- What is left of a piece behind an escape character: what follows the end of the style, or the
escape character and the piece, if they begin no style. -/
def dropStyle (piece : List Char) : List Char :=
  match piece with
  | '[' :: s =>
    match s.dropWhile isStyleChar with
    | 'm' :: rest => rest
    | _ => escape :: piece
  | _ => escape :: piece

/-- The text without its styles. -/
def unstyled (s : List Char) : List Char :=
  match s.splitOn escape with
  | [] => []
  | first :: pieces => first ++ pieces.flatMap dropStyle

@[simp] theorem unstyled_nil : unstyled [] = [] := by
  rw [unstyled, List.splitOn_nil]
  rfl

/-- Without its styles, the first text is the second one, whatever follows. -/
def Shows (styled shown : String) : Prop :=
  ∀ rest, unstyled (styled.toList ++ rest) = shown.toList ++ unstyled rest

theorem Shows.unstyled_eq {styled shown : String} (h : Shows styled shown) :
    unstyled styled.toList = shown.toList := by
  have hnil := h []
  rwa [List.append_nil, unstyled_nil, List.append_nil] at hnil

theorem Shows.append {styled shown styled' shown' : String} (h : Shows styled shown)
    (h' : Shows styled' shown') : Shows (styled ++ styled') (shown ++ shown') := by
  intro rest
  rw [String.toList_append, String.toList_append, List.append_assoc, h, h', List.append_assoc]

/-- A text without the escape character, so without styles. -/
def Plain (text : String) : Prop := escape ∉ text.toList

instance : DecidablePred Plain := fun text ↦ inferInstanceAs (Decidable (escape ∉ text.toList))

theorem Plain.append {s t : String} (hs : Plain s) (ht : Plain t) : Plain (s ++ t) := by
  rw [Plain, String.toList_append, List.mem_append, not_or]
  exact ⟨hs, ht⟩

theorem plain_toString (n : Nat) : Plain (toString n) := fun hmem ↦
  absurd (isDigit_of_mem_repr hmem) (by decide)

/-- Nothing is deleted from a plain text. -/
theorem shows_self {text : String} (htext : Plain text) : Shows text text := by
  intro rest
  obtain ⟨first, pieces, hrest⟩ := List.exists_cons_of_ne_nil (List.splitOn_ne_nil escape rest)
  rw [unstyled, splitOn_append_of_notMem htext, hrest, List.modifyHead_cons, unstyled, hrest]
  exact List.append_assoc _ _ _

theorem dropStyle_append {numbers : List Char} (hnumbers : numbers.all isStyleChar = true)
    (rest : List Char) : dropStyle ('[' :: numbers ++ 'm' :: rest) = rest := by
  have hend : (numbers ++ 'm' :: rest).dropWhile isStyleChar = 'm' :: rest := by
    refine dropWhile_append_of_head? (List.all_eq_true.mp hnumbers) fun c hc ↦ ?_
    rw [← Option.some.inj hc]
    rfl
  rw [List.cons_append, dropStyle, hend]
  rfl

/-- A style is deleted. -/
theorem shows_style (numbers : String) (hnumbers : numbers.toList.all isStyleChar = true) :
    Shows ("\x1b[" ++ numbers ++ "m") "" := by
  intro rest
  have hstyle : ("\x1b[" ++ numbers ++ "m").toList ++ rest =
      escape :: ('[' :: numbers.toList ++ ['m'] ++ rest) := by simp [escape]
  have hnone : escape ∉ '[' :: numbers.toList ++ ['m'] := by
    have hdigits : escape ∉ numbers.toList := fun hmem ↦
      absurd (List.all_eq_true.mp hnumbers escape hmem) (by decide)
    simpa [escape] using hdigits
  obtain ⟨first, pieces, hrest⟩ := List.exists_cons_of_ne_nil (List.splitOn_ne_nil escape rest)
  have hpieces : (escape :: ('[' :: numbers.toList ++ ['m'] ++ rest)).splitOn escape =
      [] :: ('[' :: numbers.toList ++ 'm' :: first) :: pieces := by
    rw [List.splitOn_cons_eq_if_modifyHead, if_pos (beq_self_eq_true escape),
      splitOn_append_of_notMem hnone, hrest, List.modifyHead_cons]
    simp
  rw [hstyle, unstyled, hpieces, unstyled, hrest]
  change dropStyle _ ++ pieces.flatMap dropStyle = first ++ pieces.flatMap dropStyle
  rw [dropStyle_append hnumbers]

/-- A plain text between a style and the end of all styles. -/
theorem shows_styled (numbers text : String) (hnumbers : numbers.toList.all isStyleChar = true)
    (htext : Plain text) : Shows ("\x1b[" ++ numbers ++ "m" ++ text ++ "\x1b[0m") text := by
  have hend : ("\x1b[0m" : String) = "\x1b[" ++ "0" ++ "m" := by decide
  have hshows := ((shows_style numbers hnumbers).append (shows_self htext)).append
    (shows_style "0" (by decide))
  rwa [← hend, String.empty_append, String.append_empty] at hshows

end Bindery.Text
