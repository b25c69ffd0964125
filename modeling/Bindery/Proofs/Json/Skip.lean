import Bindery.Proofs.Json.Token

/-!
# Values are passed over

`skipValue` passes over any value, however deep, and stops right behind it (`skipValue_tokens`). The
walk through nested values spends two steps on a character at most, so it never runs out of them:
what it may still spend is at least twice the text that is left, and one more.
-/

set_option autoImplicit false
set_option relaxedAutoImplicit false

namespace Bindery.Json

variable {budget : Nat} {s rest : List Char}

/-! ### Scalars -/

theorem word_append (letters rest : List Char) : word letters (letters ++ rest) = .ok rest := by
  induction letters with
  | nil => rfl
  | cons letter letters ih => rw [List.cons_append, word, if_pos rfl, ih]

theorem skipScalar_text {pieces : List Piece}
    (hbudget : (pieces.flatMap Piece.chars).length < budget) :
    skipScalar budget (textToken pieces ++ rest) = .ok rest := by
  have hbody := skipTextBody_pieces pieces rest hbudget
  rw [textToken, List.cons_append, List.append_assoc, skipScalar]
  simpa using hbody

theorem skipScalar_number (numeral : Numeral) (hrest : Follows rest) :
    skipScalar budget (numeral.chars ++ rest) = .ok rest := by
  have hscan := Literal.scan_chars .invalidNumber numeral hrest
  obtain ⟨c, token, hchars, hc⟩ := numeral.exists_chars
  have hnumber : c = '-' ∨ c.isDigit = true := hc
  rw [hchars, List.cons_append] at hscan ⊢
  rw [skipScalar]
  simp only [hc.ne (d := 'n') (by decide) (by decide), hc.ne (d := 't') (by decide) (by decide),
    hc.ne (d := 'f') (by decide) (by decide), hc.ne (d := '"') (by decide) (by decide), hnumber,
    if_false, if_true, hscan]
  rfl

/-! ### Steps of the walk -/

section Steps

variable {frames : List Frame} {fuel : Nat} {after : List Char}

theorem skipOpen_scalar {c : Char} (hskip : skipSpaces s = c :: after) (hlist : c ≠ '[')
    (hobject : c ≠ '\x7b') (hscalar : skipScalar budget (c :: after) = .ok rest) :
    skipOpen budget (fuel + 1) .value frames s = skipOpen budget fuel .filled frames rest := by
  rw [skipOpen, hskip]
  simp only [hlist, hobject, if_false, hscalar]

theorem skipOpen_list (hskip : skipSpaces s = '[' :: after) :
    skipOpen budget (fuel + 1) .value frames s =
      skipOpen budget fuel .opened (.list :: frames) after := by
  rw [skipOpen, hskip]
  rfl

theorem skipOpen_object (hskip : skipSpaces s = '\x7b' :: after) :
    skipOpen budget (fuel + 1) .value frames s =
      skipOpen budget fuel .opened (.object :: frames) after := by
  rw [skipOpen, hskip]
  rfl

/-- The stage in front of the first value of a frame, or of another. -/
def stageOf (first : Bool) : Stage := if first then .opened else .filled

theorem skipOpen_close {frame : Frame} (first : Bool)
    (hskip : skipSpaces s = frame.close :: after) :
    skipOpen budget (fuel + 1) (stageOf first) (frame :: frames) s =
      skipOpen budget fuel .filled frames after := by
  cases first <;>
  · rw [stageOf]
    simp [skipOpen, hskip]

/-- In front of a value, a frame has a comma, unless the value is the first, and its key. -/
theorem skipOpen_next {frame : Frame} {c : Char} {final : List Char} (first : Bool)
    (hskip : skipSpaces s = c :: after) (hclose : c ≠ frame.close)
    (hcomma : first = false → c = ',')
    (hkey : skipKey budget (if first then c :: after else after) frame = .ok final) :
    skipOpen budget (fuel + 1) (stageOf first) (frame :: frames) s =
      skipOpen budget fuel .value (frame :: frames) final := by
  cases first with
  | true =>
    simp only [if_true] at hkey
    simp [stageOf, skipOpen, hskip, hclose, hkey]
  | false =>
    obtain rfl := hcomma rfl
    simp only [Bool.false_eq_true, if_false] at hkey
    simp [stageOf, skipOpen, hskip, hclose, hkey]

end Steps

theorem skipKey_object {key : List Piece} {tokens : List (List Char)}
    (h : Spaced (textToken key :: [':'] :: tokens) s rest) (hbudget : s.length < budget) :
    ∃ after, skipKey budget s .object = .ok after ∧ Spaced tokens after rest ∧
      after.length < s.length := by
  obtain ⟨behind, hskip, hbehind, hlength⟩ := Spaced.skipSpaces_eq h (by decide)
  obtain ⟨after, hcolon, hafter, hshort⟩ := colon_of_spaced hbehind
  rw [List.append_assoc] at hskip
  simp only [List.length_append, List.length_singleton] at hlength
  have hbody := @skipTextBody_pieces budget key behind (by omega)
  refine ⟨after, ?_, hafter, by omega⟩
  rw [skipKey, hskip]
  simp only [if_true, List.cons_append, List.nil_append, hbody, bind, Except.bind]
  exact hcolon

/-! ### Nested values -/

/-- In front of an item of a list, the walk takes at most the comma. -/
theorem exists_item {first : Bool} {item : Tree} {items : List Tree} {fuel : Nat}
    (h : Spaced (itemTokens first (item :: items)) s rest)
    (hfuel : 2 * s.length + (if first then 2 else 1) ≤ fuel + 1) :
    ∃ c after final, skipSpaces s = c :: after ∧ c ≠ Frame.close .list ∧
      (first = false → c = ',') ∧
      skipKey budget (if first then c :: after else after) .list = .ok final ∧
      Spaced (item.tokens ++ itemTokens false items) final rest ∧ final.length ≤ s.length ∧
      2 * final.length + 1 ≤ fuel := by
  obtain ⟨c, token, tokens, htokens, hstarts⟩ := item.exists_tokens
  obtain ⟨hspace, hbracket⟩ := hstarts.ne
  rw [itemTokens, htokens] at h
  rw [htokens]
  cases first with
  | true =>
    obtain ⟨after, hskip, hafter, hlength⟩ := h.skipSpaces_eq hspace
    simp only [if_true] at hfuel
    have hfinal : (c :: (token ++ after)).length ≤ s.length := by
      simp only [List.length_cons, List.length_append]
      omega
    exact ⟨c, _, c :: (token ++ after), hskip, hbracket, by simp, rfl, spaced_cons hafter, hfinal,
      by omega⟩
  | false =>
    obtain ⟨behind, hskip, hbehind, hlength⟩ := Spaced.skipSpaces_eq h (by decide)
    simp only [Bool.false_eq_true, if_false, List.length_nil] at hfuel hlength
    exact ⟨',', behind, behind, hskip, by decide, fun _ ↦ rfl, rfl, hbehind, by omega, by omega⟩

/-- In front of the value of a member of an object, the walk takes the key and what is around it. -/
theorem exists_member {first : Bool} {key : List Piece} {value : Tree}
    {members : List (List Piece × Tree)} {fuel : Nat}
    (h : Spaced (memberTokens first ((key, value) :: members)) s rest) (hbudget : s.length < budget)
    (hfuel : 2 * s.length + (if first then 2 else 1) ≤ fuel + 1) :
    ∃ c after final, skipSpaces s = c :: after ∧ c ≠ Frame.close .object ∧
      (first = false → c = ',') ∧
      skipKey budget (if first then c :: after else after) .object = .ok final ∧
      Spaced (value.tokens ++ memberTokens false members) final rest ∧ final.length ≤ s.length ∧
      2 * final.length + 1 ≤ fuel := by
  rw [memberTokens] at h
  cases first with
  | true =>
    obtain ⟨after, hskip, hafter, hlength⟩ := Spaced.skipSpaces_eq h (by decide)
    simp only [if_true] at hfuel
    have hquoted : Spaced (textToken key :: [':'] :: (value.tokens ++ memberTokens false members))
        ('"' :: (key.flatMap Piece.chars ++ ['"'] ++ after)) rest := spaced_cons hafter
    have hshort : ('"' :: (key.flatMap Piece.chars ++ ['"'] ++ after)).length ≤ s.length := by
      rw [List.length_cons, List.length_append]
      omega
    obtain ⟨final, hkey, hfinal, hless⟩ := @skipKey_object budget _ _ _ _ hquoted (by omega)
    exact ⟨'"', _, final, hskip, by decide, by simp, hkey, hfinal, by omega, by omega⟩
  | false =>
    obtain ⟨behind, hskip, hbehind, hlength⟩ := Spaced.skipSpaces_eq h (by decide)
    simp only [Bool.false_eq_true, if_false, List.length_nil] at hfuel hlength
    obtain ⟨final, hkey, hfinal, hless⟩ := @skipKey_object budget _ _ _ _ hbehind (by omega)
    exact ⟨',', _, final, hskip, by decide, fun _ ↦ rfl, hkey, hfinal, by omega, by omega⟩

mutual

/-- The walk passes from the front of a value to the text behind it. The induction is on the value;
the frames that are open around it stay as they are. -/
theorem skipOpen_tree (tree : Tree) {s rest : List Char} {fuel : Nat} (frames : List Frame)
    (h : Spaced tree.tokens s rest) (hrest : Follows rest) (hbudget : s.length < budget)
    (hfuel : 2 * s.length + 1 ≤ fuel) :
    ∃ left, 2 * rest.length + 1 ≤ left ∧
      skipOpen budget fuel .value frames s = skipOpen budget left .filled frames rest := by
  obtain ⟨fuel, rfl⟩ := Nat.exists_eq_add_of_le' (Nat.le_of_add_left_le hfuel)
  have hscalar : ∀ {c : Char} {token : List Char}, tree.tokens = [c :: token] → c ≠ '[' →
      c ≠ '\x7b' → isSpace c = false →
      (∀ after, (token ++ after).length < budget → Follows after →
        skipScalar budget (c :: (token ++ after)) = .ok after) →
      ∃ left, 2 * rest.length + 1 ≤ left ∧
        skipOpen budget (fuel + 1) .value frames s = skipOpen budget left .filled frames rest := by
    intro c token htokens hlist hobject hspace hskips
    rw [htokens] at h
    obtain ⟨after, hskip, rfl, hlength⟩ := h.skipSpaces_eq hspace
    refine ⟨fuel, by omega, skipOpen_scalar hskip hlist hobject ?_⟩
    exact hskips after (by rw [List.length_append]; omega) hrest
  match tree with
  | .null =>
    refine hscalar rfl (by decide) (by decide) (by decide) fun after _ _ ↦ ?_
    exact word_append ['u', 'l', 'l'] after
  | .boolean true =>
    refine hscalar rfl (by decide) (by decide) (by decide) fun after _ _ ↦ ?_
    exact word_append ['r', 'u', 'e'] after
  | .boolean false =>
    refine hscalar rfl (by decide) (by decide) (by decide) fun after _ _ ↦ ?_
    exact word_append ['a', 'l', 's', 'e'] after
  | .number numeral =>
    obtain ⟨c, token, hchars, hc⟩ := numeral.exists_chars
    refine hscalar (by rw [Tree.tokens, hchars]) (hc.ne (by decide) (by decide))
      (hc.ne (by decide) (by decide)) hc.isSpace_eq fun after _ hafter ↦ ?_
    have hskips := @skipScalar_number budget _ numeral hafter
    rwa [hchars, List.cons_append] at hskips
  | .text pieces =>
    refine hscalar (by rw [Tree.tokens, textToken]) (by decide) (by decide) (by decide)
      fun after hlength _ ↦ ?_
    simp only [List.length_append, List.length_singleton] at hlength
    have hskips := @skipScalar_text budget after pieces (by omega)
    rwa [textToken, List.cons_append] at hskips
  | .list items =>
    rw [Tree.tokens] at h
    obtain ⟨after, hskip, hafter, hlength⟩ := h.skipSpaces_eq (by decide)
    simp only [List.nil_append, List.length_nil] at hskip hlength
    have hspend : 2 * after.length + (if true then 2 else 1) ≤ fuel := by
      simp only [if_true]
      omega
    obtain ⟨left, hleft, hitems⟩ :=
      skipOpen_items true items frames hafter (by omega) hspend
    exact ⟨left, hleft, (skipOpen_list hskip).trans hitems⟩
  | .object members =>
    rw [Tree.tokens] at h
    obtain ⟨after, hskip, hafter, hlength⟩ := h.skipSpaces_eq (by decide)
    simp only [List.nil_append, List.length_nil] at hskip hlength
    have hspend : 2 * after.length + (if true then 2 else 1) ≤ fuel := by
      simp only [if_true]
      omega
    obtain ⟨left, hleft, hmembers⟩ :=
      skipOpen_members true members frames hafter (by omega) hspend
    exact ⟨left, hleft, (skipOpen_object hskip).trans hmembers⟩

/-- Inside a list the walk passes to the text behind its closing bracket. -/
theorem skipOpen_items (first : Bool) (items : List Tree) {s rest : List Char} {fuel : Nat}
    (frames : List Frame) (h : Spaced (itemTokens first items) s rest)
    (hbudget : s.length < budget) (hfuel : 2 * s.length + (if first then 2 else 1) ≤ fuel) :
    ∃ left, 2 * rest.length + 1 ≤ left ∧
      skipOpen budget fuel (stageOf first) (.list :: frames) s =
        skipOpen budget left .filled frames rest := by
  obtain ⟨fuel, rfl⟩ := Nat.exists_eq_add_of_le' (show 1 ≤ fuel by split_ifs at hfuel <;> omega)
  match items with
  | [] =>
    rw [itemTokens] at h
    obtain ⟨after, hskip, rfl, hlength⟩ := h.skipSpaces_eq (by decide)
    simp only [List.nil_append, List.length_nil] at hskip hlength
    refine ⟨fuel, ?_, skipOpen_close first hskip⟩
    split_ifs at hfuel <;> omega
  | item :: items =>
    obtain ⟨c, after, final, hskip, hclose, hcomma, hkey, hfinal, hlength, hspend⟩ :=
      exists_item h hfuel
    obtain ⟨middle, hitem, hitems⟩ := spaced_append.mp hfinal
    have hshort := hitem.length_le
    obtain ⟨left, hleft, hvalue⟩ := skipOpen_tree item (.list :: frames) hitem
      (follows_of_itemTokens hitems) (by omega) hspend
    obtain ⟨last, hlast, hothers⟩ := skipOpen_items false items frames hitems (by omega) hleft
    refine ⟨last, hlast, ?_⟩
    rw [skipOpen_next first hskip hclose hcomma hkey, hvalue]
    exact hothers

/-- Inside an object the walk passes to the text behind its closing brace. -/
theorem skipOpen_members (first : Bool) (members : List (List Piece × Tree)) {s rest : List Char}
    {fuel : Nat} (frames : List Frame) (h : Spaced (memberTokens first members) s rest)
    (hbudget : s.length < budget) (hfuel : 2 * s.length + (if first then 2 else 1) ≤ fuel) :
    ∃ left, 2 * rest.length + 1 ≤ left ∧
      skipOpen budget fuel (stageOf first) (.object :: frames) s =
        skipOpen budget left .filled frames rest := by
  obtain ⟨fuel, rfl⟩ := Nat.exists_eq_add_of_le' (show 1 ≤ fuel by split_ifs at hfuel <;> omega)
  match members with
  | [] =>
    rw [memberTokens] at h
    obtain ⟨after, hskip, rfl, hlength⟩ := h.skipSpaces_eq (by decide)
    simp only [List.nil_append, List.length_nil] at hskip hlength
    refine ⟨fuel, ?_, skipOpen_close first hskip⟩
    split_ifs at hfuel <;> omega
  | (key, value) :: members =>
    obtain ⟨c, after, final, hskip, hclose, hcomma, hkey, hfinal, hlength, hspend⟩ :=
      exists_member h hbudget hfuel
    obtain ⟨middle, hvalue, hmembers⟩ := spaced_append.mp hfinal
    have hshort := hvalue.length_le
    obtain ⟨left, hleft, hstep⟩ := skipOpen_tree value (.object :: frames) hvalue
      (follows_of_memberTokens hmembers) (by omega) hspend
    obtain ⟨last, hlast, hothers⟩ := skipOpen_members false members frames hmembers (by omega) hleft
    refine ⟨last, hlast, ?_⟩
    rw [skipOpen_next first hskip hclose hcomma hkey, hstep]
    exact hothers

end

/-- Any value is passed over, up to the text behind it. -/
theorem skipValue_tokens {tree : Tree} (h : Spaced tree.tokens s rest) (hrest : Follows rest)
    (hbudget : s.length < budget) : skipValue budget s = .ok rest := by
  obtain ⟨left, hleft, hwalk⟩ := skipOpen_tree tree [] h hrest hbudget
    (by omega : 2 * s.length + 1 ≤ 2 * budget + 2)
  obtain ⟨left, rfl⟩ := Nat.exists_eq_add_of_le' (Nat.le_of_add_left_le hleft)
  rw [skipValue, hwalk, skipOpen]
  simp

/-- What follows a key that is not wanted is passed over. -/
theorem colon_bind_skipValue {tree : Tree} (h : Spaced ([':'] :: tree.tokens) s rest)
    (hrest : Follows rest) (hbudget : s.length < budget) :
    (colon s >>= skipValue budget) = .ok rest := by
  obtain ⟨after, hcolon, hafter, hlength⟩ := colon_of_spaced h
  rw [hcolon]
  exact skipValue_tokens hafter hrest (by omega)

end Bindery.Json
