import Bindery.Proofs.CType.Target
import Bindery.Proofs.Emission.Layout
import Bindery.Proofs.Identifier.Snake
import Bindery.Proofs.Text.Integer

/-!
# Reading a module back

The source of a module shows the names and descriptions of its items, how many fields and parameters
they have, and the values of enumerators: the `Outline` of each item. `Outline.read` finds it in the
lines of the item.
-/

set_option autoImplicit false
set_option relaxedAutoImplicit false

namespace Bindery

open Text Identifier

/-- What the source of a module shows of an item. -/
inductive Outline
  | struct (name description : String) (fields : List String)
  | typeAlias (name description : String)
  | callback (name : String) (arity : Nat) (description : String)
  | enum (name description : String) (values : List (String × String))
  | function (name : String) (arity : Nat) (description : String)
  deriving DecidableEq

def Item.outline : Item → Outline
  | .struct s => .struct s.name s.description (s.fields.map (·.description))
  | .typeAlias a => .typeAlias a.name a.description
  | .callback c => .callback c.name c.params.length c.description
  | .enum e => .enum e.name e.description
      (e.values.map fun v ↦ (toString v.value.toInt, v.description))
  | .function f => .function f.name f.params.length f.description

namespace Outline

/-! ### Kinds

What an outline says, if it is of the kind asked for. -/

def struct? : Outline → Option (String × String × List String)
  | .struct name description fields => some (name, description, fields)
  | _ => none

def typeAlias? : Outline → Option (String × String)
  | .typeAlias name description => some (name, description)
  | _ => none

def callback? : Outline → Option (String × Nat × String)
  | .callback name arity description => some (name, arity, description)
  | _ => none

def enum? : Outline → Option (String × String × List (String × String))
  | .enum name description values => some (name, description, values)
  | _ => none

def function? : Outline → Option (String × Nat × String)
  | .function name arity description => some (name, arity, description)
  | _ => none

/-! ### Reading -/

/-- The word that a text starts with. -/
def name (s : List Char) : String := String.ofList (s.takeWhile isWordChar)

/-- The remark in front of some lines, empty if there is none, and the lines behind it. -/
def splitRemark : List (List Char) → String × List (List Char)
  | [] => ("", [])
  | line :: lines =>
    match line.dropPrefix? "// ".toList with
    | some remark => (String.ofList remark, lines)
    | none => ("", line :: lines)

/-- The remarks on the fields of a structure, of which `pending` is the one on the next field. -/
def fieldRemarks (pending : String) : List (List Char) → List String
  | [] => []
  | line :: lines =>
    match line.dropPrefix? "\t// ".toList with
    | some remark => fieldRemarks (String.ofList remark) lines
    | none => pending :: fieldRemarks "" lines

/-- The value of an enumerator and the remark behind it. -/
def enumerator (line : List Char) : String × String :=
  let text := (line.dropWhile (· ≠ '=')).drop 2
  (String.ofList (text.takeWhile (· ≠ ' ')), String.ofList ((text.dropWhile (· ≠ ' ')).drop 4))

/-- How many texts stand between the first parentheses of a line. -/
def arity (line : List Char) : Nat :=
  let inside := ((line.dropWhile (· ≠ '(')).drop 1).takeWhile (· ≠ ')')
  if inside = [] then 0 else inside.count ',' + 1

/-- The outline of a function, from its name on and with the other lines of its block. -/
def ofFunction (text : List Char) (lines : List (List Char)) : Outline :=
  let (description, rest) := splitRemark lines
  .function (name text) (arity (rest.getD 1 [])) description

def ofEnum (description : String) (text : List Char) (lines : List (List Char)) : Outline :=
  .enum (name text) description (lines.dropLast.map enumerator)

/-- The outline of an item that is declared as a type. Only a structure has further lines, and only
the type of a callback is a function. -/
def ofType (description : String) (text : List Char) (lines : List (List Char)) : Outline :=
  if lines = [] then
    match (text.dropWhile isWordChar).dropPrefix? " = fn ".toList with
    | some signature => .callback (name text) (arity signature) description
    | none => .typeAlias (name text) description
  else
    let (remark, rest) := splitRemark lines
    .struct (name text) remark (fieldRemarks "" rest.tail.dropLast)

/-- The outline of the item that has the given lines. -/
def read (block : List (List Char)) : Option Outline :=
  match splitRemark block with
  | (_, []) => none
  | (description, line :: lines) =>
    ((line.dropPrefix? "fn C.".toList).map fun text ↦ ofFunction text lines).or <|
      ((line.dropPrefix? "pub enum ".toList).map fun text ↦ ofEnum description text lines).or <|
        (line.dropPrefix? "pub type ".toList).map fun text ↦ ofType description text lines

/-! ### Remarks -/

theorem dropPrefix?_append (p s : List Char) : (p ++ s).dropPrefix? p = some s :=
  List.dropPrefix?_append_of_beq s (beq_self_eq_true p)

theorem splitRemark_cons {line : List Char} (hline : line.dropPrefix? "// ".toList = none)
    (description : String) (lines : List (List Char)) :
    splitRemark ((Line.remark "" description).map Line.chars ++ line :: lines) =
      (description, line :: lines) := by
  unfold Line.remark
  split_ifs with hnone
  · rw [List.map_nil, List.nil_append, splitRemark, hline, hnone]
  · have hchars : (Line.comment "" description).chars = "// ".toList ++ description.toList := by
      simp [Line.chars, Line.text]
    rw [List.map_singleton, List.singleton_append, splitRemark, hchars, dropPrefix?_append]
    simp only [String.ofList_toList]

theorem read_cons {line : List Char} (hline : line.dropPrefix? "// ".toList = none)
    (description : String) (lines : List (List Char)) :
    read ((Line.remark "" description).map Line.chars ++ line :: lines) =
      ((line.dropPrefix? "fn C.".toList).map fun text ↦ ofFunction text lines).or
        (((line.dropPrefix? "pub enum ".toList).map fun text ↦ ofEnum description text lines).or
          ((line.dropPrefix? "pub type ".toList).map fun text ↦
            ofType description text lines)) := by
  rw [read, splitRemark_cons hline]

theorem read_function (text : List Char) (lines : List (List Char)) :
    read (("fn C.".toList ++ text) :: lines) = some (ofFunction text lines) := by
  have hremark : ("fn C.".toList ++ text).dropPrefix? "// ".toList = none := rfl
  have hread := read_cons hremark "" lines
  rw [dropPrefix?_append] at hread
  exact hread

theorem read_enum (description : String) (text : List Char) (lines : List (List Char)) :
    read ((Line.remark "" description).map Line.chars ++ ("pub enum ".toList ++ text) :: lines) =
      some (ofEnum description text lines) := by
  have hfunction : ("pub enum ".toList ++ text).dropPrefix? "fn C.".toList = none := rfl
  rw [read_cons rfl, hfunction, dropPrefix?_append]
  rfl

theorem read_type (description : String) (text : List Char) (lines : List (List Char)) :
    read ((Line.remark "" description).map Line.chars ++ ("pub type ".toList ++ text) :: lines) =
      some (ofType description text lines) := by
  have hfunction : ("pub type ".toList ++ text).dropPrefix? "fn C.".toList = none := rfl
  have henum : ("pub type ".toList ++ text).dropPrefix? "pub enum ".toList = none := rfl
  rw [read_cons rfl, hfunction, henum, dropPrefix?_append]
  rfl

/-! ### Names, parameters and values -/

theorem name_append {w rest : List Char} (hw : Word w)
    (hrest : ∀ c ∈ rest.head?, isWordChar c = false) : name (w ++ rest) = String.ofList w := by
  rw [name, takeWhile_append_of_head? (fun _ ↦ hw.isWordChar_of_mem) hrest]

/-- The texts between the first parentheses of a line are counted by their commas. -/
theorem arity_parenthesized {before : List Char} {texts : List String} (after : List Char)
    (hbefore : '(' ∉ before) (hne : ∀ text ∈ texts, text ≠ "")
    (htexts : ∀ text ∈ texts, CType.TypeText text) :
    arity (before ++ '(' :: ((Emission.commaList texts).toList ++ ')' :: after)) =
      texts.length := by
  have hinside : ')' ∉ (Emission.commaList texts).toList :=
    Emission.notMem_commaList (by decide) fun text htext ↦
      (htexts text htext).notMem rfl (by decide)
  have hcount : (Emission.commaList texts).toList.count ',' = texts.length - 1 := by
    rw [Emission.toList_commaList, count_intercalate (by decide), List.length_map]
    intro piece hpiece
    obtain ⟨text, htext, rfl⟩ := List.mem_map.mp hpiece
    exact (htexts text htext).notMem rfl (by decide)
  rw [arity, dropWhile_ne_append hbefore (by simp), List.drop_one, List.tail_cons,
    takeWhile_ne_append hinside (by simp), hcount]
  cases texts with
  | nil => rfl
  | cons text texts =>
    have hsome : (Emission.commaList (text :: texts)).toList ≠ [] := by
      have htext := mt String.toList_eq_nil_iff.mp (hne text List.mem_cons_self)
      rw [Emission.toList_commaList]
      cases texts with
      | nil => simpa using htext
      | cons next texts =>
        rw [List.map_cons, List.map_cons, List.intercalate_cons_cons, List.append_assoc]
        exact List.append_ne_nil_of_left_ne_nil htext _
    rw [if_neg hsome, List.length_cons, Nat.add_sub_cancel]

theorem fieldRemarks_append {w rest : List Char} (hw : Word w) (description : String)
    (lines : List (List Char)) :
    fieldRemarks "" ((Line.remark "\t" description).map Line.chars ++
      ("\t".toList ++ (w ++ rest)) :: lines) = description :: fieldRemarks "" lines := by
  have hcode : ("\t".toList ++ (w ++ rest)).dropPrefix? "\t// ".toList = none := by
    obtain ⟨c, w, rfl⟩ := List.exists_cons_of_ne_nil hw.1
    have hslash : c ≠ '/' := ne_of_isWordChar (hw.isWordChar_of_mem List.mem_cons_self) rfl
    simp [List.dropPrefix?, hslash]
  unfold Line.remark
  split_ifs with hnone
  · rw [List.map_nil, List.nil_append, fieldRemarks, hcode, hnone]
  · have hchars : (Line.comment "\t" description).chars =
        "\t// ".toList ++ description.toList := by
      simp [Line.chars, Line.text]
    rw [List.map_singleton, List.singleton_append, fieldRemarks, hchars, dropPrefix?_append]
    simp only [String.ofList_toList]
    rw [fieldRemarks, hcode]

/-- A line with an enumerator gives its value and its description. -/
theorem enumerator_line {w : List Char} (hw : Word w) (value : Int) (description : String) :
    enumerator (Line.described ("\t" ++ String.ofList w ++ " = " ++ toString value)
      description).chars = (toString value, description) := by
  have hvalue : ' ' ∉ (toString value).toList := notMem_toString value rfl (by decide)
  have hlead : '=' ∉ '\t' :: w ++ [' '] := by
    have hword : '=' ∉ w := hw.notMem rfl
    simp [hword]
  obtain ⟨remark, hremark, hhead, hchars⟩ : ∃ remark : List Char,
      remark.drop 4 = description.toList ∧ (∀ c ∈ remark.head?, c = ' ') ∧
      (Line.described ("\t" ++ String.ofList w ++ " = " ++ toString value) description).chars =
        '\t' :: w ++ [' '] ++ '=' :: ' ' :: ((toString value).toList ++ remark) := by
    unfold Line.described
    split_ifs with hnone
    · exact ⟨[], by rw [hnone]; rfl, by simp, by simp [Line.chars, Line.text]⟩
    · exact ⟨" // ".toList ++ description.toList, rfl, by simp, by simp [Line.chars, Line.text]⟩
  unfold enumerator
  dsimp only
  rw [hchars, dropWhile_ne_append hlead (by simp), List.drop_succ_cons, List.drop_succ_cons,
    List.drop_zero, takeWhile_ne_append hvalue hhead, dropWhile_ne_append hvalue hhead, hremark,
    String.ofList_toList,
    String.ofList_toList]

/-! ### Whole blocks -/

theorem ofType_struct {w rest line : List Char} (hw : Word w)
    (hrest : ∀ c ∈ rest.head?, isWordChar c = false) (hline : line.dropPrefix? "// ".toList = none)
    (description : String) (fields : List (List Char)) (last : List Char) :
    ofType "" (w ++ rest)
        ((Line.remark "" description).map Line.chars ++ line :: (fields ++ [last])) =
      .struct (String.ofList w) description (fieldRemarks "" fields) := by
  rw [ofType, if_neg (by simp), splitRemark_cons hline, name_append hw hrest]
  simp only [List.tail_cons, List.dropLast_concat]

theorem ofType_alias {w : List Char} (hw : Word w) (description : String) (base : List Char) :
    ofType description (w ++ (" = C.".toList ++ base)) [] =
      .typeAlias (String.ofList w) description := by
  have hrest : ∀ c ∈ (" = C.".toList ++ base).head?, isWordChar c = false := by
    simp [isWordChar_space]
  have hkind : (" = C.".toList ++ base).dropPrefix? " = fn ".toList = none := rfl
  rw [ofType, if_pos rfl, dropWhile_append_of_head? (fun _ ↦ hw.isWordChar_of_mem) hrest, hkind,
    name_append hw hrest]

theorem ofType_callback {w : List Char} (hw : Word w) (description : String)
    (signature : List Char) :
    ofType description (w ++ (" = fn ".toList ++ signature)) [] =
      .callback (String.ofList w) (arity signature) description := by
  have hrest : ∀ c ∈ (" = fn ".toList ++ signature).head?, isWordChar c = false := by
    simp [isWordChar_space]
  rw [ofType, if_pos rfl, dropWhile_append_of_head? (fun _ ↦ hw.isWordChar_of_mem) hrest,
    dropPrefix?_append, name_append hw hrest]

theorem ofFunction_append {w rest line : List Char} (hw : Word w)
    (hrest : ∀ c ∈ rest.head?, isWordChar c = false) (hline : line.dropPrefix? "// ".toList = none)
    (description : String) (head : List Char) (lines : List (List Char)) :
    ofFunction (w ++ rest)
        ((Line.remark "" description).map Line.chars ++ line :: head :: lines) =
      .function (String.ofList w) (arity head) description := by
  rw [ofFunction, splitRemark_cons hline, name_append hw hrest]
  rfl

end Outline

end Bindery
