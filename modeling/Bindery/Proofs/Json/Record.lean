import Bindery.Proofs.Json.Schema
import Mathlib.Data.List.TakeWhile

/-!
# Records are read from objects

The loop over the members of an object keeps an invariant, `Fields.Holds`: every key of the record
that has been seen has one value, which its slot holds, and the others have none. A member with a
key of the record fills a slot or fails for good (`Fields.Holds.member`), and any other is passed
over. So a record is read from an object as what its members say, whatever their order and whatever
is among them (`implements_record`), and a document as what its tree says (`Implements.document`).
-/

set_option autoImplicit false
set_option relaxedAutoImplicit false

namespace Bindery.Json

open Traversal

/-! ### Values of keys -/

theorem valuesOf_append (name : String) (front back : List (String × Tree)) :
    valuesOf name (front ++ back) = valuesOf name front ++ valuesOf name back := by
  rw [valuesOf, List.filter_append, List.map_append]
  rfl

theorem valuesOf_cons_self (name : String) (value : Tree) (members : List (String × Tree)) :
    valuesOf name ((name, value) :: members) = value :: valuesOf name members := by
  simp [valuesOf]

theorem valuesOf_cons_of_ne {name other : String} (h : other ≠ name) (value : Tree)
    (members : List (String × Tree)) :
    valuesOf name ((other, value) :: members) = valuesOf name members := by
  simp [valuesOf, h]

theorem valuesOf_concat_of_ne {name other : String} (h : other ≠ name) (value : Tree)
    (members : List (String × Tree)) :
    valuesOf name (members ++ [(other, value)]) = valuesOf name members := by
  rw [valuesOf_append, valuesOf_cons_of_ne h]
  exact List.append_nil _

/-- The values that an object has for a key, however the key is spelled. -/
def valuesFor (name : String) (members : List (List Piece × Tree)) : List Tree :=
  (members.filter fun member ↦ decode? member.1 = some name.toList).map Prod.snd

theorem mem_valuesFor {key : List Piece} {name : String} {value : Tree}
    {members : List (List Piece × Tree)} (h : decode? key = some name.toList)
    (hmember : (key, value) ∈ members) : value ∈ valuesFor name members :=
  List.mem_map.mpr ⟨(key, value), List.mem_filter.mpr ⟨hmember, decide_eq_true h⟩, rfl⟩

theorem valuesFor_cons_self {key : List Piece} {name : String}
    (h : decode? key = some name.toList) (value : Tree) (members : List (List Piece × Tree)) :
    valuesFor name ((key, value) :: members) = value :: valuesFor name members := by
  simp [valuesFor, h]

theorem valuesFor_cons_of_ne {key : List Piece} {name other : String}
    (h : decode? key = some other.toList) (hne : other ≠ name) (value : Tree)
    (members : List (List Piece × Tree)) :
    valuesFor name ((key, value) :: members) = valuesFor name members := by
  have hlist : other.toList ≠ name.toList := fun heq ↦ hne (String.toList_injective heq)
  simp [valuesFor, h, hlist]

theorem valuesOf_of_mapM {members : List (List Piece × Tree)} {named : List (String × Tree)}
    (h : members.mapM member? = some named) (name : String) :
    valuesOf name named = valuesFor name members := by
  induction members generalizing named with
  | nil =>
    obtain rfl : [] = named := Option.some.inj h
    rfl
  | cons member members ih =>
    obtain ⟨key, value⟩ := member
    obtain ⟨first, hfirst, others, hothers, rfl⟩ := mapM_cons_eq_some_iff.mp h
    obtain ⟨characters, hdecode, rfl⟩ := Option.map_eq_some_iff.mp hfirst
    have hkey : decode? key = some (String.ofList characters).toList := by
      rw [String.toList_ofList]
      exact hdecode
    by_cases hname : String.ofList characters = name
    · subst hname
      rw [valuesOf_cons_self, ih hothers, valuesFor_cons_self hkey]
    · rw [valuesOf_cons_of_ne hname, ih hothers, valuesFor_cons_of_ne hkey hname]

/-- What the values of one key say. -/
def meaningOfValues (needed : Bool) (kind : Kind) : List Tree → Option Json
  | [] => if needed then none else some (.list [])
  | [value] => kind.meaning value
  | _ => none

theorem meaningOfMembers_cons (name : String) (needed : Bool) (kind : Kind)
    (keys : List (String × Bool × Kind)) (members : List (String × Tree)) :
    meaningOfMembers ((name, needed, kind) :: keys) members =
      (meaningOfValues needed kind (valuesOf name members)).bind fun value ↦
        (meaningOfMembers keys members).map ((name, value) :: ·) := by
  rw [meaningOfMembers]
  cases valuesOf name members with
  | nil => cases needed <;> cases meaningOfMembers keys members <;> rfl
  | cons value values =>
    cases values <;> cases meaningOfMembers keys members <;> simp [meaningOfValues]

/-- What members say is decided by what the values of each key say. -/
theorem meaningOfMembers_congr {keys : List (String × Bool × Kind)}
    {members others : List (String × Tree)}
    (h : ∀ entry ∈ keys, meaningOfValues entry.2.1 entry.2.2 (valuesOf entry.1 members) =
      meaningOfValues entry.2.1 entry.2.2 (valuesOf entry.1 others)) :
    meaningOfMembers keys members = meaningOfMembers keys others := by
  induction keys with
  | nil => simp [meaningOfMembers]
  | cons entry keys ih =>
    obtain ⟨hfirst, hrest⟩ := List.forall_mem_cons.mp h
    rw [meaningOfMembers_cons, meaningOfMembers_cons, hfirst, ih hrest]

/-- Members say nothing if the values of some key do not. -/
theorem meaningOfMembers_eq_none {keys : List (String × Bool × Kind)} {name : String}
    {needed : Bool} {kind : Kind} (hkey : (name, needed, kind) ∈ keys)
    {members : List (String × Tree)}
    (h : meaningOfValues needed kind (valuesOf name members) = none) :
    meaningOfMembers keys members = none := by
  induction keys with
  | nil => exact nomatch hkey
  | cons entry keys ih =>
    obtain ⟨other, need, shape⟩ := entry
    rw [meaningOfMembers_cons]
    rcases List.mem_cons.mp hkey with heq | hmem
    · obtain ⟨rfl, rfl, rfl⟩ : name = other ∧ needed = need ∧ kind = shape := by simpa using heq
      rw [h]
      rfl
    · rw [ih hmem]
      cases meaningOfValues need shape (valuesOf other members) <;> rfl

/-! ### Slots -/

/-- A slot holds what the values of its key say, if there are any. -/
def Filled {α : Type} (write : α → Json) (kind : Kind) (values : List Tree) : Option α → Prop
  | none => values = []
  | some value => ∃ tree, values = [tree] ∧ kind.meaning tree = some (write value)

/-- The slots of a record hold what some members of an object say. -/
inductive Fields.Holds (seen : List (String × Tree)) : {β γ : Type} → Fields β γ →
    (γ → List (String × Json)) → List (String × Bool × Kind) → β → Prop
  | done : Holds seen .done (fun _ ↦ []) [] ()
  | field {α β γ : Type} {key : String} {read : Reader α} {absent : Option α}
      {rest : Fields β γ} {write : α → Json} {writes : γ → List (String × Json)} {needed : Bool}
      {kind : Kind} {keys : List (String × Bool × Kind)} {slot : Option α} {slots : β}
      (hread : Json.Implements read write kind)
      (habsent : absent.map write = if needed then none else some (.list []))
      (hslot : Filled write kind (valuesOf key seen) slot)
      (hrest : Holds seen rest writes keys slots) :
      Holds seen (.field key read absent rest)
        (fun values ↦ (key, write values.1) :: writes values.2) ((key, needed, kind) :: keys)
        (slot, slots)

section Holds

variable {β γ : Type} {fields : Fields β γ} {writes : γ → List (String × Json)}
  {keys : List (String × Bool × Kind)} {seen : List (String × Tree)} {slots : β}

/-- Before the first member, all slots are empty. -/
theorem Fields.Implements.holds (h : fields.Implements writes keys) :
    fields.Holds [] writes keys fields.noneFound := by
  induction h with
  | done => exact .done
  | field hread habsent hrest ih => exact .field hread habsent rfl ih

/-- At the end of an object, its members say what the slots hold and what stands in for the keys
that are absent. -/
theorem Fields.Holds.collect (h : fields.Holds seen writes keys slots) :
    (fields.collect slots).toOption.map writes = meaningOfMembers keys seen := by
  induction h with
  | done => simp [Fields.collect, Except.toOption, meaningOfMembers]
  | @field α β γ key read absent rest write writes needed kind keys slot slots hread habsent hslot
      hrest ih =>
    have htail : ∀ value : α, ((rest.collect slots).map (value, ·)).toOption.map
        (fun values ↦ (key, write values.1) :: writes values.2) =
          (meaningOfMembers keys seen).map ((key, write value) :: ·) := by
      intro value
      rw [toOption_map, ← ih, Option.map_map, Option.map_map]
      rfl
    rw [meaningOfMembers_cons]
    cases slot with
    | some value =>
      obtain ⟨tree, hvalues, hmeaning⟩ := hslot
      rw [hvalues, meaningOfValues, hmeaning]
      exact htail value
    | none =>
      rw [show valuesOf key seen = [] from hslot, meaningOfValues, ← habsent]
      cases absent with
      | none => rfl
      | some standard => exact htail standard

/-- A member with a key that the record does not have changes nothing. -/
theorem Fields.Holds.append_of_ne (h : fields.Holds seen writes keys slots) {name : String}
    (hname : ∀ entry ∈ keys, entry.1 ≠ name) (value : Tree) :
    fields.Holds (seen ++ [(name, value)]) writes keys slots := by
  induction h with
  | done => exact .done
  | field hread habsent hslot hrest ih =>
    obtain ⟨hfirst, hothers⟩ := List.forall_mem_cons.mp hname
    refine .field hread habsent ?_ (ih hothers)
    rwa [valuesOf_concat_of_ne (Ne.symm hfirst)]

/-- What follows a key of a field: the member fails, and no members behind it can make good for it,
or it fills the slot, which has been empty. -/
theorem Filled.member {α : Type} {name : String} {read : Reader α} {absent : Option α}
    {write : α → Json} {needed : Bool} {kind : Kind} {slot : Option α}
    (hslot : Filled write kind (valuesOf name seen) slot)
    (hread : Json.Implements read write kind) {value : Tree} {s rest : List Char} {budget : Nat}
    (hs : Spaced ([':'] :: value.tokens) s rest) (hrest : Follows rest)
    (hbudget : s.length < budget) :
    (∃ fault, (Fields.field name read absent fields).member? budget name s (slot, slots) =
        some (.error fault) ∧
      ∀ more, meaningOfValues needed kind (valuesOf name (seen ++ (name, value) :: more)) = none) ∨
    ∃ found, (Fields.field name read absent fields).member? budget name s (slot, slots) =
        some (.ok ((some found, slots), rest)) ∧
      Filled write kind (valuesOf name (seen ++ [(name, value)])) (some found) := by
  have hvalues : ∀ more, valuesOf name (seen ++ (name, value) :: more) =
      valuesOf name seen ++ value :: valuesOf name more := by
    intro more
    rw [valuesOf_append, valuesOf_cons_self]
  cases slot with
  | some found =>
    obtain ⟨tree, htree, -⟩ := hslot
    refine .inl ⟨_, by rw [Fields.member?, if_pos rfl]; rfl, fun more ↦ ?_⟩
    rw [hvalues, htree]
    rfl
  | none =>
    have hnone : valuesOf name seen = [] := hslot
    obtain ⟨after, hcolon, hafter, hlength⟩ := colon_of_spaced hs
    have hstep : (Fields.field name read absent fields).member? budget name s (none, slots) =
        some ((read budget after).map fun found ↦ ((some found.1, slots), found.2)) := by
      rw [Fields.member?, if_pos rfl]
      simp only [hcolon, bind, Except.bind]
      cases read budget after <;> rfl
    have hfits : after.length < budget := by omega
    rcases hread.cases hafter hrest hfits with
      ⟨fault, hvalue, hmeaning⟩ | ⟨found, hvalue, hmeaning⟩
    · refine .inl ⟨fault, by rw [hstep, hvalue]; rfl, fun more ↦ ?_⟩
      rw [hvalues, hnone]
      cases valuesOf name more with
      | nil => exact hmeaning
      | cons other others => rfl
    · refine .inr ⟨found, by rw [hstep, hvalue]; rfl, value, ?_, hmeaning⟩
      rw [hvalues, hnone]
      rfl

/-- What follows a key: the record does not have the key; or the member fails, and no members behind
it can make good for it; or it fills the slot of the key. -/
theorem Fields.Holds.member (h : fields.Holds seen writes keys slots)
    (hkeys : (keys.map Prod.fst).Nodup) (name : String) {value : Tree} {s rest : List Char}
    {budget : Nat} (hs : Spaced ([':'] :: value.tokens) s rest) (hrest : Follows rest)
    (hbudget : s.length < budget) :
    (fields.member? budget name s slots = none ∧ ∀ entry ∈ keys, entry.1 ≠ name) ∨
    (∃ fault, fields.member? budget name s slots = some (.error fault) ∧
      ∀ more, meaningOfMembers keys (seen ++ (name, value) :: more) = none) ∨
    (∃ filled, fields.member? budget name s slots = some (.ok (filled, rest)) ∧
      fields.Holds (seen ++ [(name, value)]) writes keys filled) := by
  induction h with
  | done => exact .inl ⟨rfl, by simp⟩
  | @field α β γ key read absent fields write writes needed kind keys slot slots hread habsent
      hslot hfields ih =>
    obtain ⟨hfresh, hothers⟩ := List.nodup_cons.mp hkeys
    by_cases hname : name = key
    · subst hname
      rcases hslot.member hread hs hrest hbudget with ⟨fault, herror, hbad⟩ | ⟨found, hok, hfilled⟩
      · exact .inr (.inl ⟨fault, herror, fun more ↦
          meaningOfMembers_eq_none List.mem_cons_self (hbad more)⟩)
      · refine .inr (.inr ⟨(some found, slots), hok, .field hread habsent hfilled ?_⟩)
        refine hfields.append_of_ne (fun entry hentry heq ↦ ?_) value
        have hmem := List.mem_map_of_mem (f := Prod.fst) hentry
        rw [heq] at hmem
        exact hfresh hmem
    · have hstep : (Fields.field key read absent fields).member? budget name s (slot, slots) =
          (fields.member? budget name s slots).map
            (·.map fun found ↦ ((slot, found.1), found.2)) := by
        rw [Fields.member?, if_neg hname]
      rw [hstep]
      rcases ih hothers with ⟨hnone, hne⟩ | ⟨fault, herror, hbad⟩ | ⟨filled, hok, hholds⟩
      · exact .inl ⟨by rw [hnone]; rfl, List.forall_mem_cons.mpr ⟨Ne.symm hname, hne⟩⟩
      · refine .inr (.inl ⟨fault, by rw [herror]; rfl, fun more ↦ ?_⟩)
        rw [meaningOfMembers_cons, hbad more]
        cases meaningOfValues needed kind (valuesOf key (seen ++ (name, value) :: more)) <;> rfl
      · refine .inr (.inr ⟨(slot, filled), by rw [hok]; rfl, .field hread habsent ?_ hholds⟩)
        rwa [valuesOf_concat_of_ne hname]

/-! ### Objects -/

theorem length_lt_memberTokens (first : Bool) (ms : List (List Piece × Tree)) :
    ms.length < (memberTokens first ms).flatten.length := by
  induction ms generalizing first with
  | nil => simp [memberTokens]
  | cons member ms ih =>
    have htail := ih false
    rw [memberTokens, List.flatten_append, List.length_append, List.flatten_cons,
      List.length_append, List.flatten_cons, List.length_append, List.flatten_append,
      List.length_append, List.length_cons, List.length_singleton]
    omega

/-- A key is read as the name that it writes, if it writes one. -/
theorem textBody_key {budget : Nat} (key : List Piece) (value : Tree) (after : List Char)
    (hbudget : (key.flatMap Piece.chars).length < budget) :
    (∃ fault, textBody budget [] (key.flatMap Piece.chars ++ '"' :: after) = .error fault ∧
      member? (key, value) = none) ∨
    ∃ name, textBody budget [] (key.flatMap Piece.chars ++ '"' :: after) =
        .ok (name.toList, after) ∧ member? (key, value) = some (name, value) := by
  have hread : (textBody budget [] (key.flatMap Piece.chars ++ '"' :: after)).toOption = _ :=
    textBody_pieces [] key after hbudget
  cases hdecode : decode? key with
  | none =>
    rw [hdecode] at hread
    obtain ⟨fault, hfault⟩ := toOption_eq_none_iff.mp hread
    exact .inl ⟨fault, hfault, by rw [member?, hdecode]; rfl⟩
  | some characters =>
    rw [hdecode] at hread
    refine .inr ⟨String.ofList characters, ?_, by rw [member?, hdecode]; rfl⟩
    rw [String.toList_ofList]
    exact toOption_eq_some_iff.mp hread

/-- The members that are left are read behind those that have been seen. The induction is on them,
and what the slots hold is its invariant. -/
theorem members_memberTokens (hkeys : (keys.map Prod.fst).Nodup) {budget fuel : Nat} (first : Bool)
    (ms : List (List Piece × Tree)) {s rest : List Char}
    (hholds : fields.Holds seen writes keys slots) (h : Spaced (memberTokens first ms) s rest)
    (hbudget : s.length < budget) (hfuel : ms.length < fuel) :
    (members fields budget fuel first slots s).toOption.map
        (fun found ↦ (writes found.1, found.2)) =
      (ms.mapM member?).bind fun more ↦
        (meaningOfMembers keys (seen ++ more)).map (·, rest) := by
  induction ms generalizing first seen slots s fuel with
  | nil =>
    obtain ⟨fuel, rfl⟩ := Nat.exists_eq_add_one_of_ne_zero (Nat.ne_zero_of_lt hfuel)
    rw [members, nextKey_nil h]
    simp only [List.mapM_nil, pure, Option.bind_some, List.append_nil, ← hholds.collect]
    cases fields.collect slots <;> rfl
  | cons member ms ih =>
    obtain ⟨fuel, rfl⟩ := Nat.exists_eq_add_one_of_ne_zero (Nat.ne_zero_of_lt hfuel)
    obtain ⟨key, value⟩ := member
    obtain ⟨after, hnext, hafter, hlength⟩ := nextKey_cons h
    have hmember : Spaced (([':'] :: value.tokens) ++ memberTokens false ms) after rest := hafter
    obtain ⟨middle, hvalue, hothers⟩ := spaced_append.mp hmember
    have hfollows := follows_of_memberTokens hothers
    have hspent := hvalue.length_le
    have hfits : after.length < budget := by omega
    rw [members, hnext, List.mapM_cons]
    rcases textBody_key key value after (by omega : _ < budget) with
      ⟨fault, hbody, hnamed⟩ | ⟨name, hbody, hnamed⟩
    · simp [hbody, hnamed, Except.toOption]
    have hrest : ∀ {filled : β}, fields.Holds (seen ++ [(name, value)]) writes keys filled →
        (members fields budget fuel false filled middle).toOption.map
            (fun found ↦ (writes found.1, found.2)) =
          (ms.mapM member?).bind fun more ↦
            (meaningOfMembers keys (seen ++ (name, value) :: more)).map (·, rest) := by
      intro filled hfilled
      have hlength : middle.length < budget := by omega
      have htail := ih false hfilled hothers hlength (Nat.lt_of_succ_lt_succ hfuel)
      simpa only [List.append_assoc, List.singleton_append] using htail
    simp only [hbody, hnamed, String.ofList_toList]
    rcases hholds.member hkeys name hvalue hfollows hfits with
      ⟨hnone, hne⟩ | ⟨fault, herror, hbad⟩ | ⟨filled, hok, hfilled⟩
    · simp only [hnone, colon_bind_skipValue hvalue hfollows hfits]
      rw [hrest (hholds.append_of_ne hne value)]
      cases ms.mapM member? <;> rfl
    · simp only [herror]
      cases ms.mapM member? with
      | none => rfl
      | some more => simp [hbad more, Except.toOption]
    · simp only [hok]
      rw [hrest hfilled]
      cases ms.mapM member? <;> rfl

/-- A record is read from an object, or from a list of its values. -/
theorem implements_record {α : Type} {write : α → Json} {build : γ → α} (title : String)
    (hfields : fields.Implements writes keys) (hkeys : (keys.map Prod.fst).Nodup)
    (hbuild : ∀ values, write (build values) = .object (writes values)) :
    Implements (.record title fields build) write (.record keys) := by
  intro tree s rest budget h hrest hbudget
  by_cases hadmits : (Kind.record keys).Admits tree
  · cases tree with
    | object ms =>
      rw [Tree.tokens] at h
      obtain ⟨after, hskip, hafter, hlength⟩ := h.skipSpaces_eq (by decide)
      simp only [List.nil_append, List.length_nil] at hskip hlength
      have hcount := length_lt_memberTokens true ms
      have hspent := hafter.length_le
      have hfits : after.length < budget := by omega
      have hfuel : ms.length < budget := by omega
      have hmembers := members_memberTokens hkeys true ms hfields.holds hafter hfits hfuel
      have hobject := congrArg (Option.map fun found ↦ (Json.object found.1, found.2)) hmembers
      rw [Reader.record, hskip]
      simp only [if_true, toOption_map, Kind.meaning, Option.map_map, Function.comp_def, hbuild,
        List.nil_append, Option.map_bind] at hobject ⊢
      exact hobject
    | list trees =>
      rw [Tree.tokens] at h
      obtain ⟨after, hskip, hafter, hlength⟩ := h.skipSpaces_eq (by decide)
      simp only [List.nil_append, List.length_nil] at hskip hlength
      have hfits : after.length < budget := by omega
      have htokens : Spaced (itemTokens ((0 : Nat) == 0) trees) after rest := hafter
      have hitems := hfields.toEnd title fields.size trees htokens hfits
      have hobject := congrArg (Option.map fun found ↦ (Json.object found.1, found.2)) hitems
      have hread : Reader.record title fields build budget s =
          (fields.toEnd title fields.size budget 0 after).map
            fun found ↦ (build found.1, found.2) := by
        have hbracket : '[' ≠ '\x7b' := by decide
        rw [Reader.record, hskip, Fields.toEnd]
        simp only [hbracket, if_false, if_true, bind, Except.bind]
        cases fields.positional title fields.size budget 0 after with
        | error fault => rfl
        | ok found =>
          dsimp only
          cases listEnd found.2 <;> rfl
      rw [hread, toOption_map]
      simp only [Kind.meaning, Option.map_map, Function.comp_def, hbuild] at hobject ⊢
      exact hobject
    | _ => exact hadmits.elim
  · obtain ⟨c, after, hskip, hstarts⟩ := h.exists_start
    have hbrace : c ≠ '\x7b' := by
      intro hc
      obtain ⟨members, rfl⟩ := hstarts.admits.2.2.2 hc
      exact hadmits trivial
    have hbracket : c ≠ '[' := by
      intro hc
      obtain ⟨items, rfl⟩ := hstarts.admits.2.2.1 hc
      exact hadmits trivial
    rw [Kind.meaning_of_not_admits hadmits, Reader.record, hskip]
    simp only [hbrace, hbracket, if_false]
    rfl

end Holds

/-! ### Documents -/

/-- A reader takes from a document what its tree says. -/
theorem Implements.document {α : Type} {read : Reader α} {write : α → Json} {kind : Kind}
    (himplements : Implements read write kind) {tree : Tree} {document : List Char}
    (h : tree.Spells document) :
    (read.document document).toOption.map write = kind.meaning tree := by
  obtain ⟨rest, htree, hblanks⟩ := h
  have hend : skipSpaces rest = [] := List.dropWhile_eq_nil_iff.mpr hblanks
  have hrest : Follows rest := fun c hc ↦ .inl (hblanks c (List.mem_of_mem_head? hc))
  rw [Reader.document]
  rcases himplements.cases htree hrest (Nat.lt_succ_self _) with
    ⟨fault, hread, hnone⟩ | ⟨value, hread, hsome⟩
  · rw [hnone, hread]
    rfl
  · rw [hsome, hread]
    simp only [bind, Except.bind, hend]
    rfl

end Bindery.Json
