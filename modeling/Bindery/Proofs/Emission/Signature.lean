import Bindery.Proofs.Emission.Unambiguous

/-!
# The lists of a function

The block of a function has three lists in parentheses: the types of the raw declaration, the
parameters of the wrapper and the arguments of the raw call. `Signature.read` reads such a list off
a line, whatever made the line. In the block of a function whose names are identifiers and none of
whose parameters stands for no value, the three lists have an entry for each parameter, which agree
position by position (`Crosses`), and the body returns what the declarations say (`Answers`). This
is `functionLines_lineUp`.
-/

set_option autoImplicit false
set_option relaxedAutoImplicit false

namespace Bindery

open Text Identifier Traversal CType

/-- A line with a list in parentheses. -/
structure Signature where
  before : String
  entries : List String
  after : String
  deriving DecidableEq

namespace Signature

/-- What stands before, between and behind the first parentheses of a line; commas divide the
entries, and the blanks in front of an entry do not belong to it. -/
def read (line : String) : Signature :=
  let opened := (line.toList.dropWhile (· ≠ '(')).drop 1
  let inside := opened.takeWhile (· ≠ ')')
  { before := String.ofList (line.toList.takeWhile (· ≠ '('))
    entries := if inside = [] then [] else
      (inside.splitOn ',').map fun entry ↦ String.ofList (trimStart entry)
    after := String.ofList ((opened.dropWhile (· ≠ ')')).drop 1) }

example : read "pub fn trace_log(log_level int, text string) int" =
    ⟨"pub fn trace_log", ["log_level int", "text string"], " int"⟩ := by
  decide

/-- A text that can stand in a list. -/
structure IsEntry (text : String) : Prop where
  ne_empty : text ≠ ""
  head : ∀ c ∈ text.toList.head?, isBlank c = false
  comma_notMem : ',' ∉ text.toList
  parenthesis_notMem : ')' ∉ text.toList

theorem map_trimStart_splitOn_space (s : List Char) :
    ((' ' :: s).splitOn ',').map trimStart = (s.splitOn ',').map trimStart := by
  rw [List.splitOn_cons_eq_if_modifyHead, if_neg (by decide)]
  cases hs : s.splitOn ',' with
  | nil => rfl
  | cons piece pieces =>
    have hpiece : trimStart (' ' :: piece) = trimStart piece := rfl
    rw [List.modifyHead_cons, List.map_cons, List.map_cons, hpiece]

/-- The entries of a list are found between its commas. -/
theorem splitOn_intercalate {text : String} {texts : List String} (htext : IsEntry text)
    (htexts : ∀ t ∈ texts, IsEntry t) :
    (([',', ' '].intercalate ((text :: texts).map String.toList)).splitOn ',').map trimStart =
      (text :: texts).map String.toList := by
  have halone : ∀ {text : String}, IsEntry text → trimStart text.toList = text.toList :=
    fun h ↦ trimStart_of_head? h.head
  induction texts generalizing text with
  | nil =>
    rw [List.map_singleton, List.intercalate_singleton,
      List.splitOn_eq_singleton htext.comma_notMem, List.map_singleton, halone htext]
  | cons next texts ih =>
    have hrest := ih (htexts next List.mem_cons_self) fun t ht ↦
      htexts t (List.mem_cons_of_mem next ht)
    rw [List.map_cons, List.map_cons, List.intercalate_cons_cons, ← List.map_cons,
      List.append_assoc, List.cons_append, List.cons_append, List.nil_append,
      List.splitOn_append_cons_self, List.splitOn_eq_singleton htext.comma_notMem,
      List.singleton_append, List.map_cons, map_trimStart_splitOn_space, hrest, halone htext]

/-- A list in parentheses is read as it was put together. -/
theorem read_commaList {before : String} {texts : List String} (after : String)
    (hbefore : '(' ∉ before.toList) (htexts : ∀ text ∈ texts, IsEntry text) :
    read (before ++ "(" ++ Emission.commaList texts ++ ")" ++ after) =
      ⟨before, texts, after⟩ := by
  have hinside : ')' ∉ (Emission.commaList texts).toList :=
    Emission.notMem_commaList (by decide) fun text htext ↦ (htexts text htext).parenthesis_notMem
  have hline : (before ++ "(" ++ Emission.commaList texts ++ ")" ++ after).toList =
      before.toList ++ '(' :: ((Emission.commaList texts).toList ++ ')' :: after.toList) := by
    simp
  have hopen : ∀ rest, ∀ c ∈ ('(' :: rest).head?, c = '(' := by simp
  have hclose : ∀ rest, ∀ c ∈ (')' :: rest).head?, c = ')' := by simp
  rw [read, hline, takeWhile_ne_append hbefore (hopen _), dropWhile_ne_append hbefore (hopen _),
    List.drop_one, List.tail_cons, takeWhile_ne_append hinside (hclose _),
    dropWhile_ne_append hinside (hclose _), List.drop_one, List.tail_cons, String.ofList_toList,
    String.ofList_toList]
  congr 1
  cases texts with
  | nil => rfl
  | cons text texts =>
    have hfirst := htexts text List.mem_cons_self
    have hentries := splitOn_intercalate hfirst fun t ht ↦ htexts t (List.mem_cons_of_mem text ht)
    rw [← Emission.toList_commaList] at hentries
    have hne : (Emission.commaList (text :: texts)).toList ≠ [] := by
      intro hnil
      rw [hnil, List.map_cons] at hentries
      exact hfirst.ne_empty (String.toList_eq_nil_iff.mp (List.cons.inj hentries).1.symm)
    have hread := congrArg (List.map String.ofList) hentries
    rw [List.map_map, List.map_map] at hread
    rw [if_neg hne]
    simpa [Function.comp_def] using hread

end Signature

namespace Emission

/-- How a parameter stands in the three lists, with the raw type, the entry of the wrapper and the
argument of the call: as it is, as the bytes of a string, or spread. -/
inductive Crosses (name : String) : String → String → String → Prop
  | direct {raw : String} (hbytes : raw ≠ "&u8") (hsingle : ∀ element, raw ≠ "..." ++ element) :
    Crosses name raw (name ++ " " ++ raw) name
  | text : Crosses name "&u8" (name ++ " " ++ "string") (name ++ ".str")
  | spread (element : String) :
    Crosses name ("..." ++ element) (name ++ " " ++ ("..." ++ element)) ("..." ++ name)

/-- How a body returns the value of a call, with what stands behind the lists of the raw declaration
and of the wrapper. -/
inductive Answers (call : String) : String → String → List Line → Prop
  | nothing : Answers call "" "" [.code ("\t" ++ call)]
  | direct {type : String} (hne : type ≠ "") (hbytes : type ≠ "&u8") :
    Answers call (" " ++ type) (" " ++ type) [.code ("\treturn " ++ call)]
  | text : Answers call " &u8" " string"
      [.code "\tunsafe \x7b", .code ("\t\treturn " ++ call ++ ".vstring()"), .code "\t\x7d"]

/-- The raw declaration, the head of the wrapper and the call in the lines of a function line up. -/
structure LinesUp (profile : Profile) (f : Interface.Function) (lines : List Line)
    (raw head call : String) (body : List Line) : Prop where
  lines_eq : lines = [.code raw] ++ Line.remark "" f.description ++
    [.code "@[inline]", .code (head ++ " \x7b")] ++ body ++ [.code "\x7d"]
  before_raw : (Signature.read raw).before = "fn C." ++ f.name
  before_head : (Signature.read head).before = "pub fn " ++ snakeCase f.name
  before_call : (Signature.read call).before = "C." ++ f.name
  after_call : (Signature.read call).after = ""
  length_raw : (Signature.read raw).entries.length = f.params.length
  length_head : (Signature.read head).entries.length = f.params.length
  length_call : (Signature.read call).entries.length = f.params.length
  crosses : ∀ (i : Nat) (param : Interface.Param), f.params[i]? = some param →
    ∃ rawType shown argument,
      (Signature.read raw).entries[i]? = some rawType ∧
      (Signature.read head).entries[i]? = some shown ∧
      (Signature.read call).entries[i]? = some argument ∧
      mapText profile.variadics param.type (some (snakeCase f.name)) = .ok rawType ∧
      Crosses (snakeCase param.name) rawType shown argument
  answers : Answers call (Signature.read raw).after (Signature.read head).after body

/-! ### One parameter -/

theorem isVariadic_iff {raw : String} :
    isVariadic raw = true ↔ ∃ element, raw = "..." ++ element := by
  rw [isVariadic, List.isPrefixOf_iff_prefix]
  constructor
  · rintro ⟨rest, hrest⟩
    refine ⟨String.ofList rest, String.toList_inj.mp ?_⟩
    simp [← hrest, variadicMark]
  · rintro ⟨element, rfl⟩
    exact ⟨element.toList, by rw [String.toList_append]; rfl⟩

theorem crosses_ofRaw (name raw : String) :
    Crosses name raw (name ++ " " ++ (Binding.Param.mk name raw (.ofRaw raw)).publicType)
      (Binding.Param.mk name raw (.ofRaw raw)).argument := by
  unfold Binding.Passing.ofRaw
  split_ifs with hbytes hvariadic
  · rw [hbytes]
    exact .text
  · obtain ⟨element, rfl⟩ := isVariadic_iff.mp hvariadic
    exact .spread element
  · exact .direct hbytes fun element h ↦ hvariadic (isVariadic_iff.mpr ⟨element, h⟩)

/-! ### Entries -/

theorem isEntry_of_typeText {text : String} (htext : TypeText text) (hne : text ≠ "")
    (hhead : ∀ c ∈ text.toList.head?, isBlank c = false) : Signature.IsEntry text :=
  ⟨hne, hhead, htext.notMem rfl (by decide), htext.notMem rfl (by decide)⟩

/-- What starts with a word can be an entry. -/
theorem isEntry_append {name rest : String} (hname : Word name.toList) (hrest : TypeText rest) :
    Signature.IsEntry (name ++ rest) := by
  obtain ⟨c, s, hs⟩ := List.exists_cons_of_ne_nil hname.1
  have hc : isWordChar c = true := hname.isWordChar_of_mem (hs ▸ List.mem_cons_self)
  refine isEntry_of_typeText ((typeText_of_word hname).append hrest) (fun hempty ↦ ?_) ?_
  · have hnil := congrArg String.toList hempty
    rw [String.toList_append, hs] at hnil
    exact nomatch hnil
  · intro d hd
    rw [String.toList_append, hs] at hd
    cases hd
    exact isBlank_of_isWordChar hc

theorem isEntry_of_mem_variadics {profile : Profile} (hprofile : profile ∈ Profile.builtin) :
    ∀ entry ∈ profile.variadics, Signature.IsEntry entry.2 := by
  have hlibrary : ∀ entry ∈ Profile.libraryVariadics,
      entry.2 ≠ "" ∧ entry.2.toList.head?.all (fun c ↦ !isBlank c) = true := by decide
  intro entry hentry
  obtain ⟨hne, hhead⟩ := hlibrary entry (variadics_of_mem_builtin hprofile ▸ hentry)
  refine isEntry_of_typeText (typeText_of_mem_variadics hprofile entry hentry) hne fun c hc ↦ ?_
  rw [Option.mem_def.mp hc] at hhead
  simpa using hhead

/-- The raw type of a parameter can be an entry, unless it is no type at all. -/
theorem isEntry_mapText {profile : Profile} (hprofile : profile ∈ Profile.builtin)
    {text target : String} {function : Option String}
    (hsome : ∀ type, ofText text = .ok type → ¬ type.IsNothing)
    (h : mapText profile.variadics text function = .ok target) : Signature.IsEntry target := by
  by_cases htext : trim text.toList = variadicMark
  · rw [mapText, if_pos htext] at h
    obtain ⟨name, hname⟩ := exists_mem_of_resolveVariadic h
    exact isEntry_of_mem_variadics hprofile _ hname
  · obtain ⟨type, htype, rfl⟩ := (mapText_eq_ok_iff htext).mp h
    have hwell := wellFormed_of_ofText htype
    refine isEntry_of_typeText (typeText_of_ofText htype).2
      (mt (target_eq_empty_iff hwell).mp (hsome type htype)) fun c hc ↦ ?_
    rcases head?_target hwell c hc with hword | hmark
    · exact isBlank_of_isWordChar hword
    · have hmarks : (shapeMarks.all fun c ↦ !isBlank c) = true := by decide
      simpa using List.all_eq_true.mp hmarks c hmark

/-- A parameter that stands for a value has an entry in each of the three lists. -/
theorem isEntry_of_binds {profile : Profile} (hprofile : profile ∈ Profile.builtin)
    {function : String} {param : Interface.Param} {bound : Binding.Param}
    (hname : IsIdentifier param.name.toList)
    (hsome : ∀ type, ofText param.type = .ok type → ¬ type.IsNothing)
    (h : Binding.Binds profile.variadics function param bound) :
    Signature.IsEntry bound.rawType ∧
      Signature.IsEntry (bound.name ++ " " ++ bound.publicType) ∧
      Signature.IsEntry bound.argument := by
  obtain ⟨rawType, hraw, rfl⟩ := h
  have hword := word_snakeCase hname.word
  have htype : TypeText rawType := typeText_of_builtin hprofile hraw
  refine ⟨isEntry_mapText hprofile hsome hraw, ?_, ?_⟩
  · rw [String.append_assoc]
    exact isEntry_append hword (typeText_space.append (typeText_publicType htype))
  · cases hpassing : Binding.Passing.ofRaw rawType with
    | direct =>
      rw [Binding.Param.argument, ← String.append_empty (s := snakeCase param.name)]
      exact isEntry_append hword (by decide)
    | text => exact isEntry_append hword (by decide)
    | spread =>
      have hargument : Binding.Param.argument ⟨snakeCase param.name, rawType, .spread⟩ =
          "..." ++ snakeCase param.name := rfl
      have htext : TypeText ("..." ++ snakeCase param.name) :=
        TypeText.append (by decide) (typeText_of_word hword)
      rw [hargument]
      refine isEntry_of_typeText htext (fun hempty ↦ ?_) fun c hc ↦ ?_
      · exact absurd (congrArg String.toList hempty) (by simp)
      · have hdot : c = '.' := by simpa using hc.symm
        rw [hdot]
        rfl

/-! ### Lines -/

/-- A declaration is read back with its type behind the list. -/
theorem read_withType {before : String} {texts : List String} (type : String)
    (hbefore : '(' ∉ before.toList) (htexts : ∀ text ∈ texts, Signature.IsEntry text) :
    Signature.read (withType (before ++ "(" ++ commaList texts ++ ")") type) =
      ⟨before, texts, withType "" type⟩ := by
  unfold withType
  split_ifs
  · simpa using Signature.read_commaList "" hbefore htexts
  · have hread := Signature.read_commaList (" " ++ type) hbefore htexts
    simpa only [String.append_assoc, String.empty_append] using hread

theorem read_rawDeclaration {binding : Binding} (hsymbol : '(' ∉ binding.symbol.toList)
    (hentries : ∀ param ∈ binding.params, Signature.IsEntry param.rawType) :
    Signature.read (rawDeclaration binding) =
      ⟨"fn C." ++ binding.symbol, binding.params.map (·.rawType),
        withType "" binding.rawReturn⟩ := by
  have hbefore : '(' ∉ ("fn C." ++ binding.symbol).toList := by simp [hsymbol]
  exact read_withType binding.rawReturn hbefore (List.forall_mem_map.mpr hentries)

theorem read_wrapperHead {binding : Binding} (hname : '(' ∉ binding.name.toList)
    (hentries : ∀ param ∈ binding.params,
      Signature.IsEntry (param.name ++ " " ++ param.publicType)) :
    Signature.read (wrapperHead binding) =
      ⟨"pub fn " ++ binding.name,
        binding.params.map fun param ↦ param.name ++ " " ++ param.publicType,
        withType "" binding.publicReturn⟩ := by
  have hbefore : '(' ∉ ("pub fn " ++ binding.name).toList := by simp [hname]
  exact read_withType binding.publicReturn hbefore (List.forall_mem_map.mpr hentries)

theorem read_rawCall {binding : Binding} (hsymbol : '(' ∉ binding.symbol.toList)
    (hentries : ∀ param ∈ binding.params, Signature.IsEntry param.argument) :
    Signature.read binding.rawCall =
      ⟨"C." ++ binding.symbol, binding.params.map (·.argument), ""⟩ := by
  have hbefore : '(' ∉ ("C." ++ binding.symbol).toList := by simp [hsymbol]
  exact read_withType "" hbefore (List.forall_mem_map.mpr hentries)

theorem answers_ofRaw {binding : Binding} (h : binding.returning = .ofRaw binding.rawReturn) :
    Answers binding.rawCall (withType "" binding.rawReturn) (withType "" binding.publicReturn)
      (wrapperBody binding) := by
  unfold Binding.publicReturn wrapperBody
  rw [h, Binding.Returning.ofRaw]
  split_ifs with hempty hbytes
  · rw [hempty]
    exact .nothing
  · rw [hbytes]
    exact .text
  · rw [withType, if_neg hempty, String.empty_append]
    exact .direct hempty hbytes

/-- The block of a function has the raw declaration, the head of the wrapper and the call of its
binding, and these line up. -/
theorem functionLines_lineUp {profile : Profile} (hprofile : profile ∈ Profile.builtin)
    {f : Interface.Function} {lines : List Line}
    (hnames : ∀ name ∈ (Item.function f).names, IsIdentifier name.toList)
    (hsome : ∀ param ∈ f.params, ∀ type, ofText param.type = .ok type → ¬ type.IsNothing)
    (h : (Item.function f).lines profile = .ok lines) :
    ∃ raw head call body, LinesUp profile f lines raw head call body := by
  obtain ⟨binding, hbinding, rfl⟩ := map_eq_ok_iff.mp h
  obtain ⟨rawReturn, params, -, hparams, hparts⟩ := Binding.ofFunction_eq_ok_iff.mp hbinding
  have hsymbol : binding.symbol = f.name := by rw [hparts]
  have hname : binding.name = snakeCase f.name := by rw [hparts]
  have hreturning : binding.returning = .ofRaw binding.rawReturn := by rw [hparts]
  have hdescription : binding.description = f.description := by rw [hparts]
  have hbinds : List.Forall₂ (Binding.Binds profile.variadics (snakeCase f.name)) f.params
      binding.params := by rwa [hparts]
  have hword : Word f.name.toList := (hnames f.name List.mem_cons_self).word
  have hsymbolOpen : '(' ∉ binding.symbol.toList := hsymbol ▸ hword.notMem rfl
  have hnameOpen : '(' ∉ binding.name.toList := hname ▸ (word_snakeCase hword).notMem rfl
  have hentries : ∀ bound ∈ binding.params, Signature.IsEntry bound.rawType ∧
      Signature.IsEntry (bound.name ++ " " ++ bound.publicType) ∧
      Signature.IsEntry bound.argument := by
    intro bound hbound
    obtain ⟨param, hparam, hparamBinds⟩ := exists_of_mem_right hbinds hbound
    exact isEntry_of_binds hprofile
      (hnames param.name (List.mem_cons_of_mem _ (List.mem_map_of_mem hparam)))
      (hsome param hparam) hparamBinds
  -- No name opens a list, and no entry divides or closes one: they are read as they are made.
  have hraw := read_rawDeclaration hsymbolOpen fun bound hbound ↦ (hentries bound hbound).1
  have hhead := read_wrapperHead hnameOpen fun bound hbound ↦ (hentries bound hbound).2.1
  have hcall := read_rawCall hsymbolOpen fun bound hbound ↦ (hentries bound hbound).2.2
  refine ⟨rawDeclaration binding, wrapperHead binding, binding.rawCall, wrapperBody binding, ?_⟩
  have hlength : binding.params.length = f.params.length := hbinds.length_eq.symm
  constructor
  case lines_eq => rw [bindingLines, hdescription]
  case before_raw => rw [hraw, hsymbol]
  case before_head => rw [hhead, hname]
  case before_call => rw [hcall, hsymbol]
  case after_call => rw [hcall]
  case length_raw => rw [hraw, List.length_map, hlength]
  case length_head => rw [hhead, List.length_map, hlength]
  case length_call => rw [hcall, List.length_map, hlength]
  case crosses =>
    intro i param hparam
    obtain ⟨bound, hbound, rawType, hrawType, rfl⟩ := exists_of_getElem? hbinds hparam
    refine ⟨rawType, _, _, ?_, ?_, ?_, hrawType, crosses_ofRaw _ rawType⟩
    · rw [hraw, List.getElem?_map, hbound]
      rfl
    · rw [hhead, List.getElem?_map, hbound]
      rfl
    · rw [hcall, List.getElem?_map, hbound]
      rfl
  case answers =>
    rw [hraw, hhead]
    exact answers_ofRaw hreturning

/-- The lists of a function with a number, a string and a variadic parameter. -/
theorem functionLines_lineUp_traceLog :
    (∀ name ∈ (Item.function Binding.traceLog).names, IsIdentifier name.toList) ∧
      (∀ param ∈ Binding.traceLog.params, ∀ type ∈ (ofText param.type).toOption,
        ¬ type.IsNothing) ∧
      ∃ lines raw head call body, (Item.function Binding.traceLog).lines .raylib = .ok lines ∧
        LinesUp .raylib Binding.traceLog lines raw head call body := by
  have hnames : ∀ name ∈ (Item.function Binding.traceLog).names, IsIdentifier name.toList := by
    decide
  have hsome : ∀ param ∈ Binding.traceLog.params, ∀ type ∈ (ofText param.type).toOption,
      ¬ type.IsNothing := by
    decide
  obtain ⟨lines, hlines⟩ :
      ∃ lines, (Item.function Binding.traceLog).lines .raylib = .ok lines := ⟨_, rfl⟩
  obtain ⟨raw, head, call, body, hup⟩ := functionLines_lineUp (by decide) hnames
    (fun param hparam type htype ↦ hsome param hparam type (toOption_eq_some_iff.mpr htype)) hlines
  exact ⟨hnames, hsome, lines, raw, head, call, body, hlines, hup⟩

end Emission

end Bindery
