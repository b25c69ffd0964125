import Bindery.Proofs.Json.Skip
import Bindery.Proofs.Traversal

/-!
# What readers take from trees

A `Kind` is the shape of a value that a reader is for, and `Kind.meaning` what a tree says as a
value of that shape, if it says anything. A reader `Implements` a kind when it takes just this from
the tokens of every tree, and fails on those that say nothing. Readers of texts, integers and lists
do, and so do the values of a record that is written as a list (`Fields.Implements.toEnd`).
-/

set_option autoImplicit false
set_option relaxedAutoImplicit false

namespace Bindery.Json

open Traversal

/-! ### Kinds -/

/-- The shape of a value. A record has keys, each of them with whether it is needed and the shape of
its value; a list stands in for a value whose key is not needed, and is empty where it is absent. -/
inductive Kind
  | text
  | integer
  | list (item : Kind)
  | record (keys : List (String × Bool × Kind))

/-- The integer of 64 bits that a numeral writes, if it writes one. -/
def Numeral.int64? (numeral : Numeral) : Option Int64 :=
  match numeral.literal.number with
  | .ok value => (value.toInt64 []).toOption.map Prod.fst
  | .error _ => none

/-- A member of an object with its key decoded. -/
def member? (member : List Piece × Tree) : Option (String × Tree) :=
  (decode? member.1).map fun characters ↦ (String.ofList characters, member.2)

/-- The values that an object has for a key. -/
def valuesOf (name : String) (members : List (String × Tree)) : List Tree :=
  (members.filter fun member ↦ member.1 = name).map Prod.snd

mutual

/-- What a tree of some kind says, with every key of a record in order and empty lists for those
that are absent. -/
def Kind.meaning : Kind → Tree → Option Json
  | .text, .text pieces => (decode? pieces).map fun characters ↦ .text (String.ofList characters)
  | .integer, .number numeral => numeral.int64?.map fun value ↦ .integer value.toInt
  | .list item, .list items => (items.mapM item.meaning).map .list
  | .record keys, .object members =>
    ((members.mapM member?).bind (meaningOfMembers keys)).map .object
  | .record keys, .list items => (meaningOfItems keys items).map .object
  | _, _ => none

/-- What the members of an object say: each key has one value at most. -/
def meaningOfMembers : List (String × Bool × Kind) → List (String × Tree) →
    Option (List (String × Json))
  | [], _ => some []
  | (name, needed, kind) :: keys, members => do
    let value ← match valuesOf name members with
      | [] => if needed then none else some (.list [])
      | [value] => kind.meaning value
      | _ => none
    let values ← meaningOfMembers keys members
    return (name, value) :: values

/-- What the items of a list say that is a record: they are the values of its keys in order, and
those that are missing at the end are absent. -/
def meaningOfItems : List (String × Bool × Kind) → List Tree → Option (List (String × Json))
  | [], [] => some []
  | [], _ :: _ => none
  | (name, needed, _) :: keys, [] =>
    if needed then none
    else (meaningOfItems keys []).map fun values ↦ (name, .list []) :: values
  | (name, _, kind) :: keys, item :: items => do
    let value ← kind.meaning item
    let values ← meaningOfItems keys items
    return (name, value) :: values

end

/-- The JSON kind of a value is that of its shape; a record may be an object or a list. -/
def Kind.Admits : Kind → Tree → Prop
  | .text, .text _ | .integer, .number _ | .list _, .list _ | .record _, .object _
  | .record _, .list _ => True
  | _, _ => False

/-- A value of another JSON kind says nothing. -/
theorem Kind.meaning_of_not_admits {kind : Kind} {tree : Tree} (h : ¬kind.Admits tree) :
    kind.meaning tree = none := by
  cases kind <;> cases tree <;> first | exact absurd trivial h | simp [meaning]

/-! ### Readers -/

/-- A reader takes from a tree what it says as a value of some kind, wherever the tree is laid out,
and fails where it says nothing. -/
def Implements {α : Type} (read : Reader α) (write : α → Json) (kind : Kind) : Prop :=
  ∀ (tree : Tree) (s rest : List Char) (budget : Nat), Spaced tree.tokens s rest → Follows rest →
    s.length < budget →
      (read budget s).toOption.map (fun found ↦ (write found.1, found.2)) =
        (kind.meaning tree).map (·, rest)

/-- The first character of a tree gives its JSON kind away. -/
theorem Tree.Starts.admits {c : Char} {tree : Tree} (h : tree.Starts c) :
    (c = '"' → Kind.text.Admits tree) ∧ (StartsNumber c → Kind.integer.Admits tree) ∧
      (c = '[' → ∃ items, tree = .list items) ∧
      (c = '\x7b' → ∃ members, tree = .object members) := by
  cases tree with
  | null =>
    obtain rfl : c = 'n' := h
    simp +decide [StartsNumber]
  | boolean value =>
    cases value with
    | false =>
      obtain rfl : c = 'f' := h
      simp +decide [StartsNumber]
    | true =>
      obtain rfl : c = 't' := h
      simp +decide [StartsNumber]
  | number numeral =>
    have hnumber : StartsNumber c := h
    exact ⟨fun hc ↦ absurd hc (hnumber.ne (by decide) (by decide)), fun _ ↦ trivial,
      fun hc ↦ absurd hc (hnumber.ne (by decide) (by decide)),
      fun hc ↦ absurd hc (hnumber.ne (by decide) (by decide))⟩
  | text pieces =>
    obtain rfl : c = '"' := h
    simp +decide [StartsNumber, Kind.Admits]
  | list items =>
    obtain rfl : c = '[' := h
    simp +decide [StartsNumber]
  | object members =>
    obtain rfl : c = '\x7b' := h
    simp +decide [StartsNumber]

theorem implements_text : Implements .text Json.text .text := by
  intro tree s rest budget h _ hbudget
  by_cases hadmits : Kind.text.Admits tree
  · cases tree with
    | text pieces =>
      rw [Tree.tokens, textToken] at h
      obtain ⟨after, hskip, rfl, hlength⟩ := h.skipSpaces_eq (by decide)
      simp only [List.length_append, List.length_singleton] at hlength
      have hbody : (textBody budget [] (pieces.flatMap Piece.chars ++ '"' :: after)).toOption = _ :=
        textBody_pieces [] pieces after (by omega)
      rw [Reader.text, hskip, List.append_assoc]
      simp only [if_true, List.singleton_append, toOption_map, hbody, Kind.meaning, Option.map_map]
      rfl
    | _ => exact hadmits.elim
  · obtain ⟨c, after, hskip, hstarts⟩ := h.exists_start
    have hc : c ≠ '"' := fun hc ↦ hadmits (hstarts.admits.1 hc)
    rw [Kind.meaning_of_not_admits hadmits, Reader.text, hskip]
    simp only [hc, if_false]
    rfl

theorem toOption_toInt64 (value : Number) (s : List Char) :
    (value.toInt64 s).toOption = (value.toInt64 []).toOption.map fun found ↦ (found.1, s) := by
  cases value with
  | natural value =>
    rw [Number.toInt64, Number.toInt64]
    split_ifs <;> rfl
  | negative magnitude => rfl
  | real value => rfl

theorem implements_integer : Implements .integer (fun value ↦ .integer value.toInt) .integer := by
  intro tree s rest budget h hrest hbudget
  by_cases hadmits : Kind.integer.Admits tree
  · cases tree with
    | number numeral =>
      obtain ⟨c, token, hchars, hc⟩ := numeral.exists_chars
      have hstart : c = '-' ∨ c.isDigit = true := hc
      rw [Tree.tokens, hchars] at h
      obtain ⟨after, hskip, rfl, hlength⟩ := h.skipSpaces_eq hc.isSpace_eq
      have hscan := Literal.scan_chars .endOfValue numeral hrest
      rw [hchars, List.cons_append] at hscan
      have hnumber : (Json.number (c :: (token ++ after))).toOption =
          numeral.literal.number.toOption.map (·, after) := by
        unfold Json.number
        rw [toOption_bind, hscan]
        simp only [Except.toOption, Option.bind_some]
        cases numeral.literal.number <;> rfl
      rw [Reader.integer, hskip]
      simp only [hstart, if_true, Kind.meaning, Numeral.int64?]
      cases hvalue : numeral.literal.number with
      | error left =>
        rw [hvalue] at hnumber
        obtain ⟨fault, hfault⟩ := toOption_eq_none_iff.mp hnumber
        rw [hfault]
        rfl
      | ok value =>
        rw [hvalue] at hnumber
        rw [toOption_eq_some_iff.mp hnumber]
        simp only [toOption_toInt64 value after, Option.map_map]
        rfl
    | _ => exact hadmits.elim
  · obtain ⟨c, after, hskip, hstarts⟩ := h.exists_start
    have hc : ¬(c = '-' ∨ c.isDigit = true) := fun hc ↦ hadmits (hstarts.admits.2.1 hc)
    rw [Kind.meaning_of_not_admits hadmits, Reader.integer, hskip]
    simp only [hc, if_false]
    rfl

/-! ### Lists -/

section Lists

variable {α : Type} {read : Reader α} {write : α → Json} {kind : Kind}

/-- A reader fails on a tree, which says nothing, or takes what the tree says. -/
theorem Implements.cases (h : Implements read write kind) {tree : Tree} {s rest : List Char}
    {budget : Nat} (hs : Spaced tree.tokens s rest) (hrest : Follows rest)
    (hbudget : s.length < budget) :
    (∃ fault, read budget s = .error fault ∧ kind.meaning tree = none) ∨
      ∃ value, read budget s = .ok (value, rest) ∧ kind.meaning tree = some (write value) := by
  have hread := h tree s rest budget hs hrest hbudget
  cases hresult : read budget s with
  | error fault =>
    rw [hresult] at hread
    exact .inl ⟨fault, rfl, by simpa [Except.toOption] using hread.symm⟩
  | ok found =>
    rw [hresult] at hread
    obtain ⟨json, hmeaning, hfound⟩ := Option.map_eq_some_iff.mp hread.symm
    obtain ⟨rfl, rfl⟩ := Prod.mk.inj hfound
    exact .inr ⟨found.1, rfl, hmeaning⟩

theorem Tree.length_tokens_pos (tree : Tree) : 0 < tree.tokens.flatten.length := by
  obtain ⟨c, token, tokens, htokens, -⟩ := tree.exists_tokens
  rw [htokens]
  simp

theorem length_lt_itemTokens (first : Bool) (trees : List Tree) :
    trees.length < (itemTokens first trees).flatten.length := by
  induction trees generalizing first with
  | nil => simp [itemTokens]
  | cons tree trees ih =>
    have hpos := tree.length_tokens_pos
    have htail := ih false
    rw [itemTokens, List.flatten_append, List.flatten_append, List.length_append,
      List.length_append, List.length_cons]
    omega

/-- The items that are left are read behind those that have been. -/
theorem items_itemTokens (himplements : Implements read write kind) {budget fuel : Nat}
    (trees : List Tree) (done : List α) {s rest : List Char}
    (h : Spaced (itemTokens done.isEmpty trees) s rest) (hbudget : s.length < budget)
    (hfuel : trees.length < fuel) :
    (items read budget fuel done s).toOption.map (fun found ↦ (found.1.map write, found.2)) =
      (trees.mapM kind.meaning).map fun values ↦ (done.reverse.map write ++ values, rest) := by
  induction trees generalizing done s fuel with
  | nil =>
    obtain ⟨fuel, rfl⟩ := Nat.exists_eq_add_one_of_ne_zero (Nat.ne_zero_of_lt hfuel)
    rw [items, nextItem_nil h]
    simp [Except.toOption]
  | cons tree trees ih =>
    obtain ⟨fuel, rfl⟩ := Nat.exists_eq_add_one_of_ne_zero (Nat.ne_zero_of_lt hfuel)
    obtain ⟨after, hnext, hafter, hlength⟩ := nextItem_cons h
    obtain ⟨middle, htree, htrees⟩ := spaced_append.mp hafter
    have hshort := htree.length_le
    have hfits : after.length < budget := by omega
    rw [items, hnext]
    rcases himplements.cases htree (follows_of_itemTokens htrees) hfits with
      ⟨fault, hread, hnone⟩ | ⟨value, hread, hsome⟩
    · simp [hread, List.mapM_cons, hnone, Except.toOption]
    · have htail := ih (value :: done) htrees (by omega) (Nat.lt_of_succ_lt_succ hfuel)
      simp only [hread, htail, List.mapM_cons, hsome]
      cases trees.mapM kind.meaning with
      | none => rfl
      | some values => simp

theorem implements_list (himplements : Implements read write kind) :
    Implements (.list read) (fun values ↦ .list (values.map write)) (.list kind) := by
  intro tree s rest budget h hrest hbudget
  by_cases hadmits : (Kind.list kind).Admits tree
  · cases tree with
    | list trees =>
      rw [Tree.tokens] at h
      obtain ⟨after, hskip, hafter, hlength⟩ := h.skipSpaces_eq (by decide)
      simp only [List.nil_append, List.length_nil] at hskip hlength
      have hcount := length_lt_itemTokens true trees
      have hspent := hafter.length_le
      have hfits : after.length < budget := by omega
      have hfuel : trees.length < budget := by omega
      have hitems := items_itemTokens himplements trees [] hafter hfits hfuel
      rw [Reader.list, hskip]
      simp only [if_true, Kind.meaning, Option.map_map]
      have hlist := congrArg (Option.map fun found ↦ (Json.list found.1, found.2)) hitems
      simpa [Option.map_map, Function.comp_def] using hlist
    | _ => exact hadmits.elim
  · obtain ⟨c, after, hskip, hstarts⟩ := h.exists_start
    have hc : c ≠ '[' := by
      intro hc
      obtain ⟨items, rfl⟩ := hstarts.admits.2.2.1 hc
      exact hadmits trivial
    rw [Kind.meaning_of_not_admits hadmits, Reader.list, hskip]
    simp only [hc, if_false]
    rfl

end Lists

/-! ### Fields -/

/-- The fields of a record have readers for the values of its keys, and stand-ins for those that are
not needed. -/
inductive Fields.Implements : {β γ : Type} → Fields β γ → (γ → List (String × Json)) →
    List (String × Bool × Kind) → Prop
  | done : Implements .done (fun _ ↦ []) []
  | field {α β γ : Type} {key : String} {read : Reader α} {absent : Option α} {rest : Fields β γ}
      {write : α → Json} {writes : γ → List (String × Json)} {needed : Bool} {kind : Kind}
      {keys : List (String × Bool × Kind)} (hread : Json.Implements read write kind)
      (habsent : absent.map write = if needed then none else some (.list []))
      (hrest : rest.Implements writes keys) :
      Implements (.field key read absent rest)
        (fun values ↦ (key, write values.1) :: writes values.2) ((key, needed, kind) :: keys)

/-- Reads the values of a record that are left in a list, and its closing bracket. -/
def Fields.toEnd {β γ : Type} (fields : Fields β γ) (title : String) (total budget index : Nat)
    (s : List Char) : Except Fault (γ × List Char) := do
  let (values, s) ← fields.positional title total budget index s
  return (values, ← listEnd s)

/-- A value that has been read is put in front of those that the other fields take from the list. -/
theorem Fields.toEnd_field {α β γ : Type} {key title : String} {read : Reader α}
    {absent : Option α} {rest : Fields β γ} {total budget index : Nat} {s middle : List Char}
    {value : α}
    (h : (Fields.field key read absent rest).positional title total budget index s =
      (rest.positional title total budget (index + 1) middle).map
        fun found ↦ ((value, found.1), found.2)) :
    (Fields.field key read absent rest).toEnd title total budget index s =
      (rest.toEnd title total budget (index + 1) middle).map
        fun found ↦ ((value, found.1), found.2) := by
  rw [toEnd, h, toEnd]
  cases rest.positional title total budget (index + 1) middle with
  | error fault => rfl
  | ok found =>
    simp only [Except.map, bind, Except.bind]
    cases listEnd found.2 <;> rfl

/-- The values of a record that is written as a list are read from the items that are left. -/
theorem Fields.Implements.toEnd {β γ : Type} {fields : Fields β γ}
    {writes : γ → List (String × Json)} {keys : List (String × Bool × Kind)}
    (hfields : fields.Implements writes keys) (title : String) (total : Nat) {budget index : Nat}
    (trees : List Tree) {s rest : List Char} (h : Spaced (itemTokens (index == 0) trees) s rest)
    (hbudget : s.length < budget) :
    (fields.toEnd title total budget index s).toOption.map
        (fun found ↦ (writes found.1, found.2)) = (meaningOfItems keys trees).map (·, rest) := by
  induction hfields generalizing index trees s with
  | done =>
    cases trees with
    | nil =>
      rw [Fields.toEnd, Fields.positional]
      simp [bind, Except.bind, listEnd_nil h, pure, Except.pure, Except.toOption, meaningOfItems]
    | cons tree trees =>
      obtain ⟨fault, hend⟩ := listEnd_cons h
      rw [Fields.toEnd, Fields.positional]
      simp [bind, Except.bind, hend, Except.toOption, meaningOfItems]
  | @field α β γ key read absent fields write writes needed kind keys hread habsent hrest ih =>
    have hput : ∀ (value : α) (trees : List Tree) (middle : List Char),
        Spaced (itemTokens false trees) middle rest → middle.length < budget →
        (Fields.field key read absent fields).positional title total budget index s =
          (fields.positional title total budget (index + 1) middle).map
            (fun found ↦ ((value, found.1), found.2)) →
        ((Fields.field key read absent fields).toEnd title total budget index s).toOption.map
            (fun found ↦ ((key, write found.1.1) :: writes found.1.2, found.2)) =
          (meaningOfItems keys trees).map fun values ↦ ((key, write value) :: values, rest) := by
      intro value trees middle htrees hfits hstep
      have htail := congrArg (Option.map fun found ↦ ((key, write value) :: found.1, found.2))
        (@ih (index + 1) trees middle htrees hfits)
      rw [Fields.toEnd_field hstep, toOption_map]
      simpa only [Option.map_map, Function.comp_def] using htail
    cases trees with
    | nil =>
      have hnext := nextItem_nil h
      cases absent with
      | none =>
        have hneeded : needed = true := by simpa using habsent
        rw [Fields.toEnd, Fields.positional, hnext, meaningOfItems, if_pos hneeded]
        rfl
      | some standard =>
        obtain ⟨hneeded, hstandard⟩ : needed = false ∧ write standard = .list [] := by
          cases needed <;> simp_all
        have hclosed : Spaced (itemTokens false []) (']' :: rest) rest :=
          @spaced_cons [']'] rest [] rest rfl
        have hlength : (']' :: rest).length < budget := by
          have hspent := h.length_le
          rw [itemTokens, List.flatten_cons, List.length_append, List.length_singleton] at hspent
          rw [List.length_cons]
          omega
        have hstep : (Fields.field key read (some standard) fields).positional title total budget
            index s = (fields.positional title total budget (index + 1) (']' :: rest)).map
              fun found ↦ ((standard, found.1), found.2) := by
          rw [Fields.positional, hnext]
          rfl
        rw [hput standard [] _ hclosed hlength hstep, meaningOfItems, if_neg (by simp [hneeded]),
          hstandard, Option.map_map]
        rfl
    | cons tree trees =>
      obtain ⟨after, hnext, hafter, hlength⟩ := nextItem_cons h
      obtain ⟨middle, htree, htrees⟩ := spaced_append.mp hafter
      have hshort := htree.length_le
      have hfits : after.length < budget := by omega
      rcases hread.cases htree (follows_of_itemTokens htrees) hfits with
        ⟨fault, hvalue, hnone⟩ | ⟨value, hvalue, hsome⟩
      · rw [Fields.toEnd, Fields.positional, hnext]
        simp [bind, Except.bind, hvalue, meaningOfItems, hnone, Except.toOption]
      · have hstep : (Fields.field key read absent fields).positional title total budget index s =
            (fields.positional title total budget (index + 1) middle).map
              fun found ↦ ((value, found.1), found.2) := by
          rw [Fields.positional, hnext]
          simp only [bind, Except.bind, hvalue, if_true]
          rfl
        rw [hput value trees middle htrees (by omega) hstep, meaningOfItems, hsome]
        cases meaningOfItems keys trees <;> rfl

end Bindery.Json
