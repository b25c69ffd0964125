import Bindery.Proofs.Json.Literal

/-!
# Readers of what is written

A reader `Reads` a value from a JSON value when it takes it from its compact text, whatever follows
that can follow a value. Texts and integers are read from theirs; a list is read when its items are
(`reads_list`), and a record when its fields are read from the members of an object with the keys in
their order (`Fields.Writes`, `reads_record`). A document that is the text of such a value is read
as it (`document_write`).
-/

set_option autoImplicit false
set_option relaxedAutoImplicit false

namespace Bindery.Json

/-- A reader takes a value from the text of a JSON value, and leaves what follows. -/
def Reads {α : Type} (read : Reader α) (value : α) (json : Json) : Prop :=
  ∀ (budget : Nat) (rest : List Char), json.write.length < budget → Ends rest →
    read budget (json.write ++ rest) = .ok (value, rest)

theorem reads_text (value : String) : Reads .text value (.text value) :=
  fun _ rest hbudget _ ↦ text_writeText value rest (by simpa [write] using hbudget)

theorem reads_integer (value : Int64) : Reads .integer value (.integer value.toInt) :=
  fun budget _ _ hrest ↦ by
    rw [write]
    exact integer_toString hrest budget value

/-- The text of a value starts with a character that is neither a blank nor a closing bracket. -/
theorem exists_write_eq_cons (json : Json) :
    ∃ c s, json.write = c :: s ∧ isSpace c = false ∧ c ≠ ']' := by
  cases json with
  | null => exact ⟨'n', _, by rw [write], by decide, by decide⟩
  | boolean value =>
    cases value
    · exact ⟨'f', _, by rw [write], by decide, by decide⟩
    · exact ⟨'t', _, by rw [write], by decide, by decide⟩
  | integer value =>
    rw [write, Int.toString_eq_repr, Int.repr_eq_if]
    split_ifs with hsign
    · obtain ⟨d, digits, hdigits, hd⟩ := exists_toDigits_eq_cons value.toNat
      refine ⟨d, digits, by rw [Nat.toList_repr, hdigits], isSpace_of_isDigit hd, ?_⟩
      rintro rfl
      exact absurd hd (by decide)
    · exact ⟨'-', _, by rw [String.toList_append]; rfl, by decide, by decide⟩
  | text value => exact ⟨'"', _, by rw [write]; rfl, by decide, by decide⟩
  | list items => exact ⟨'[', _, by rw [write]; rfl, by decide, by decide⟩
  | object members => exact ⟨'\x7b', _, by rw [write]; rfl, by decide, by decide⟩

/-! ### Lists -/

/-- The text of what comes behind a first item or member. -/
def later {α : Type} (text : α → List Char) (others : List α) : List Char :=
  others.flatMap fun other ↦ ',' :: text other

theorem later_cons {α : Type} (text : α → List Char) (next : α) (others : List α) :
    later text (next :: others) = ',' :: (text next ++ later text others) :=
  rfl

theorem length_le_later {α : Type} (text : α → List Char) (others : List α) :
    others.length ≤ (later text others).length := by
  induction others with
  | nil => exact Nat.zero_le _
  | cons next others ih =>
    rw [later_cons, List.length_cons, List.length_cons, List.length_append]
    omega

theorem ends_later {α : Type} (text : α → List Char) (others : List α) {close : Char}
    (hclose : close = ']' ∨ close = '\x7d') (rest : List Char) :
    Ends (later text others ++ close :: rest) := by
  cases others with
  | nil => simp [Ends, later, hclose]
  | cons next others => simp [Ends, later_cons]

theorem writeItems_cons (item : Json) (items : List Json) :
    writeItems (item :: items) = item.write ++ later Json.write items := by
  induction items generalizing item with
  | nil => simp [writeItems, later]
  | cons next items ih => rw [writeItems, ih]; rfl

/-- The move to the first item of a list. -/
theorem nextItem_write (json : Json) (rest : List Char) :
    nextItem true (json.write ++ rest) = .ok (true, json.write ++ rest) := by
  obtain ⟨c, s, hwrite, hspace, hbracket⟩ := exists_write_eq_cons json
  rw [hwrite, List.cons_append, nextItem, skipSpaces_cons hspace]
  simp only [hbracket, if_false, if_true]

/-- The move to the next item of a list. -/
theorem nextItem_comma_write (json : Json) (rest : List Char) :
    nextItem false (',' :: (json.write ++ rest)) = .ok (true, json.write ++ rest) := by
  obtain ⟨c, s, hwrite, hspace, hbracket⟩ := exists_write_eq_cons json
  rw [hwrite, List.cons_append, nextItem, skipSpaces_cons (by decide)]
  simp only [skipSpaces_cons hspace, hbracket]
  rfl

theorem nextItem_bracket (first : Bool) (rest : List Char) :
    nextItem first (']' :: rest) = .ok (false, ']' :: rest) := by
  rw [nextItem, skipSpaces_cons (by decide)]
  rfl

section Lists

variable {α : Type} {item : Reader α} {toJson : α → Json}

/-- The items behind the first one are read up to the closing bracket. -/
theorem items_later {values done : List α} {budget fuel : Nat} (rest : List Char)
    (hitem : ∀ value ∈ values, Reads item value (toJson value)) (hdone : done ≠ [])
    (hbudget : (later Json.write (values.map toJson)).length < budget)
    (hfuel : values.length < fuel) :
    items item budget fuel done (later Json.write (values.map toJson) ++ ']' :: rest) =
      .ok (done.reverse ++ values, rest) := by
  have hfirst : done.isEmpty = false := by simpa using hdone
  induction values generalizing done fuel with
  | nil =>
    obtain ⟨fuel, rfl⟩ := Nat.exists_eq_add_one_of_ne_zero (Nat.ne_zero_of_lt hfuel)
    rw [items, hfirst]
    simp [later, nextItem_bracket]
  | cons value values ih =>
    obtain ⟨fuel, rfl⟩ := Nat.exists_eq_add_one_of_ne_zero (Nat.ne_zero_of_lt hfuel)
    obtain ⟨hvalue, hothers⟩ := List.forall_mem_cons.mp hitem
    rw [List.map_cons, later_cons, List.length_cons, List.length_append] at hbudget
    rw [List.map_cons, later_cons, List.cons_append, List.append_assoc, items, hfirst,
      nextItem_comma_write]
    simp only
    rw [hvalue budget _ (by omega) (ends_later _ _ (.inl rfl) _)]
    simp only
    rw [ih hothers (List.cons_ne_nil _ _) (by omega) (by simpa using hfuel) rfl]
    simp

/-- A list is read when its items are. -/
theorem reads_list {values : List α} (hitem : ∀ value ∈ values, Reads item value (toJson value)) :
    Reads (.list item) values (.list (values.map toJson)) := by
  intro budget rest hbudget _
  have htext : (list (values.map toJson)).write ++ rest =
      '[' :: (writeItems (values.map toJson) ++ ']' :: rest) := by simp [write]
  have hlength : (list (values.map toJson)).write.length =
      (writeItems (values.map toJson)).length + 2 := by simp [write]
  rw [hlength] at hbudget
  rw [htext, Reader.list, skipSpaces_cons (by decide)]
  simp only [if_true]
  obtain ⟨budget, rfl⟩ := Nat.exists_eq_add_one_of_ne_zero (Nat.ne_zero_of_lt hbudget)
  cases values with
  | nil =>
    rw [items]
    simp [writeItems, nextItem_bracket]
  | cons value values =>
    obtain ⟨hvalue, hothers⟩ := List.forall_mem_cons.mp hitem
    have hcount := length_le_later Json.write (values.map toJson)
    rw [List.length_map] at hcount
    rw [List.map_cons, writeItems_cons] at hbudget ⊢
    rw [List.length_append] at hbudget
    rw [List.append_assoc, items, List.isEmpty_nil, nextItem_write]
    simp only
    rw [hvalue _ _ (by omega) (ends_later _ _ (.inl rfl) _)]
    simp only
    rw [items_later rest hothers (List.cons_ne_nil _ _) (by omega) (by omega)]
    simp

end Lists

/-! ### Records -/

/-- The members of an object are those of the fields of a record, in their order. -/
inductive Fields.Writes : {β γ : Type} → Fields β γ → γ → List (String × Json) → Prop
  | done : Writes .done () []
  | field {α β γ : Type} {key : String} {read : Reader α} {absent : Option α} {rest : Fields β γ}
      {value : α} {values : γ} {json : Json} {members : List (String × Json)}
      (hread : Reads read value json) (hrest : rest.Writes values members) :
      Writes (.field key read absent rest) (value, values) ((key, json) :: members)

/-- The keys of a record. -/
def Fields.keys {β γ : Type} : Fields β γ → List String
  | .done => []
  | .field key _ _ rest => key :: rest.keys

theorem Fields.Writes.map_fst {β γ : Type} {fields : Fields β γ} {values : γ}
    {members : List (String × Json)} (h : fields.Writes values members) :
    members.map Prod.fst = fields.keys := by
  induction h with
  | done => rfl
  | field _ _ ih => rw [List.map_cons, ih, Fields.keys]

/-- The values of a record but those of some last members have been found. -/
inductive Fields.Lacks : {β γ : Type} → Fields β γ → β → γ → List (String × Json) → Prop
  | all {β γ : Type} {fields : Fields β γ} {values : γ} {members : List (String × Json)}
      (hwrites : fields.Writes values members) : Lacks fields fields.noneFound values members
  | found {α β γ : Type} {key : String} {read : Reader α} {absent : Option α} {rest : Fields β γ}
      {value : α} {slots : β} {values : γ} {members : List (String × Json)}
      (hkey : key ∉ members.map Prod.fst) (hrest : rest.Lacks slots values members) :
      Lacks (.field key read absent rest) (some value, slots) (value, values) members

/-- Once no member is lacking, the record is complete. -/
theorem Fields.Lacks.collect {β γ : Type} {fields : Fields β γ} {slots : β} {values : γ}
    (h : fields.Lacks slots values []) : fields.collect slots = .ok values := by
  generalize hmembers : ([] : List (String × Json)) = members at h
  induction h with
  | all hwrites =>
    cases hwrites with
    | done => rfl
    | field _ _ => exact nomatch hmembers
  | found _ _ ih =>
    rw [Fields.collect, ih hmembers]
    rfl

/-- The first member that is lacking is found. The induction goes past the fields whose values have
been found, none of which has its key. -/
theorem Fields.Lacks.member? {β γ : Type} {fields : Fields β γ} {slots : β} {values : γ}
    {key : String} {json : Json} {members : List (String × Json)} {budget : Nat} {rest : List Char}
    (h : fields.Lacks slots values ((key, json) :: members)) (hkey : key ∉ members.map Prod.fst)
    (hbudget : json.write.length < budget) (hrest : Ends rest) :
    ∃ after, fields.member? budget key (':' :: (json.write ++ rest)) slots =
        some (.ok (after, rest)) ∧ fields.Lacks after values members := by
  generalize hmembers : (key, json) :: members = lacking at h
  induction h with
  | all hwrites =>
    cases hwrites with
    | done => exact nomatch hmembers
    | field hread hothers =>
      obtain ⟨hhead, rfl⟩ := List.cons.inj hmembers
      obtain ⟨rfl, rfl⟩ := Prod.mk.inj hhead
      refine ⟨_, ?_, .found hkey (.all hothers)⟩
      have hcolon : colon (':' :: (json.write ++ rest)) = .ok (json.write ++ rest) := by
        rw [colon, skipSpaces_cons (by decide)]
        rfl
      simp only [Fields.member?, Fields.noneFound, if_true, Option.isSome_none, hcolon, bind,
        Except.bind]
      rw [hread budget rest hbudget hrest]
      rfl
  | @found _ _ _ other _ _ _ _ _ _ _ hnot _ ih =>
    subst hmembers
    obtain ⟨after, hafter, hlacks⟩ := ih rfl
    have hother : ¬key = other := fun hsame ↦ hnot (by simp [hsame])
    refine ⟨_, ?_, .found (fun hmem ↦ hnot (List.mem_cons_of_mem _ hmem)) hlacks⟩
    rw [Fields.member?, if_neg hother, hafter]
    rfl

/-! ### Objects -/

/-- The text of a member of an object. -/
def writeMember (member : String × Json) : List Char :=
  writeText member.1 ++ ':' :: member.2.write

theorem writeMember_append (member : String × Json) (rest : List Char) :
    writeMember member ++ rest =
      '"' :: (member.1.toList.flatMap writeChar ++ '"' :: ':' :: (member.2.write ++ rest)) := by
  rw [writeMember, List.append_assoc, writeText_append, List.cons_append]

theorem writeMembers_cons (member : String × Json) (members : List (String × Json)) :
    writeMembers (member :: members) = writeMember member ++ later writeMember members := by
  induction members generalizing member with
  | nil => simp [writeMembers, later, writeMember]
  | cons next members ih =>
    rw [writeMembers, ih]
    simp [later, writeMember]

theorem nextKey_brace (first : Bool) (rest : List Char) :
    nextKey first ('\x7d' :: rest) = .ok (false, rest) := by
  rw [nextKey, skipSpaces_cons (by decide)]
  rfl

theorem nextKey_quote (rest : List Char) : nextKey true ('"' :: rest) = .ok (true, rest) := by
  rw [nextKey, skipSpaces_cons (by decide)]
  rfl

theorem nextKey_comma_quote (rest : List Char) :
    nextKey false (',' :: '"' :: rest) = .ok (true, rest) := by
  rw [nextKey, skipSpaces_cons (by decide)]
  simp only [skipSpaces_cons (show isSpace '"' = false by decide)]
  rfl

section Objects

variable {β γ : Type} {fields : Fields β γ} {values : γ}

/-- Where a key has been reached, the member that is lacking is read, and then the others. -/
theorem members_of_nextKey {first : Bool} {slots : β} {budget : Nat} {s rest : List Char}
    {member : String × Json} {members : List (String × Json)} (fuel : Nat)
    (h : fields.Lacks slots values (member :: members))
    (hkeys : ((member :: members).map Prod.fst).Nodup)
    (hnext : nextKey first s = .ok (true, member.1.toList.flatMap writeChar ++
      '"' :: ':' :: (member.2.write ++ rest)))
    (hbudget : (writeMember member).length < budget) (hrest : Ends rest) :
    ∃ after, fields.Lacks after values members ∧
      Json.members fields budget (fuel + 1) first slots s =
        Json.members fields budget fuel false after rest := by
  obtain ⟨key, json⟩ := member
  rw [writeMember, List.length_append, List.length_cons] at hbudget
  simp only at hbudget
  have hjson : json.write.length < budget := by omega
  obtain ⟨after, hafter, hlacks⟩ := h.member? (List.nodup_cons.mp hkeys).1 hjson hrest
  refine ⟨after, hlacks, ?_⟩
  have hfits : (writeText key).length < budget := by omega
  have hkey := textBody_writeText key (':' :: (json.write ++ rest)) hfits
  rw [Json.members, hnext]
  simp only [hkey, String.ofList_toList, hafter]

/-- The members behind the first one are read up to the closing brace. -/
theorem members_later {slots : β} {budget fuel : Nat} {members : List (String × Json)}
    (rest : List Char) (h : fields.Lacks slots values members)
    (hkeys : (members.map Prod.fst).Nodup) (hbudget : (later writeMember members).length < budget)
    (hfuel : members.length < fuel) :
    Json.members fields budget fuel false slots (later writeMember members ++ '\x7d' :: rest) =
      .ok (values, rest) := by
  induction members generalizing slots fuel with
  | nil =>
    obtain ⟨fuel, rfl⟩ := Nat.exists_eq_add_one_of_ne_zero (Nat.ne_zero_of_lt hfuel)
    rw [Json.members, later, List.flatMap_nil, List.nil_append, nextKey_brace]
    simp only [h.collect]
  | cons member members ih =>
    obtain ⟨fuel, rfl⟩ := Nat.exists_eq_add_one_of_ne_zero (Nat.ne_zero_of_lt hfuel)
    rw [later_cons, List.length_cons, List.length_append] at hbudget
    have hmember : (writeMember member).length < budget := by omega
    obtain ⟨after, hlacks, hmembers⟩ := members_of_nextKey fuel h hkeys (nextKey_comma_quote _)
      hmember (ends_later _ members (.inr rfl) rest)
    rw [later_cons, List.cons_append, List.append_assoc, writeMember_append, hmembers]
    exact ih hlacks (List.nodup_cons.mp hkeys).2 (by omega) (Nat.lt_of_succ_lt_succ hfuel)

end Objects

/-- A record without a key twice is read from the members of an object that are those of its
fields. -/
theorem reads_record {α β γ : Type} {fields : Fields β γ} {values : γ}
    {members : List (String × Json)} (title : String) (build : γ → α)
    (hwrites : fields.Writes values members) (hkeys : fields.keys.Nodup) :
    Reads (.record title fields build) (build values) (.object members) := by
  intro budget rest hbudget _
  rw [← hwrites.map_fst] at hkeys
  have htext : (object members).write ++ rest =
      '\x7b' :: (writeMembers members ++ '\x7d' :: rest) := by simp [write]
  have hlength : (object members).write.length = (writeMembers members).length + 2 := by
    simp [write]
  rw [hlength] at hbudget
  have hbody : Json.members fields budget budget true fields.noneFound
      (writeMembers members ++ '\x7d' :: rest) = .ok (values, rest) := by
    obtain ⟨fuel, rfl⟩ := Nat.exists_eq_add_one_of_ne_zero (Nat.ne_zero_of_lt hbudget)
    cases members with
    | nil =>
      rw [Json.members, writeMembers, List.nil_append, nextKey_brace]
      simp only [(Fields.Lacks.all hwrites).collect]
    | cons member members =>
      rw [writeMembers_cons, List.length_append] at hbudget
      have hmember : (writeMember member).length < fuel + 1 := by omega
      have hcount := length_le_later writeMember members
      obtain ⟨after, hlacks, hmembers⟩ := members_of_nextKey fuel (.all hwrites) hkeys
        (nextKey_quote _) hmember (ends_later _ members (.inr rfl) rest)
      rw [writeMembers_cons, List.append_assoc, writeMember_append, hmembers]
      exact members_later rest hlacks (List.nodup_cons.mp hkeys).2 (by omega) (by omega)
  rw [htext, Reader.record, skipSpaces_cons (by decide)]
  simp only [if_true, hbody, Except.map]

/-- A document that is the text of a value is read as the value. -/
theorem document_write {α : Type} {read : Reader α} {value : α} {json : Json}
    (h : Reads read value json) : read.document json.write = .ok value := by
  have hread := h (json.write.length + 1) [] (Nat.lt_succ_self _) (by simp [Ends])
  rw [List.append_nil] at hread
  rw [Reader.document, hread]
  rfl

end Bindery.Json
