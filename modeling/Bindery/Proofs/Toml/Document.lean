import Bindery.Proofs.Toml.Strings
import Bindery.Toml.Document

/-!
# Documents that are written and read

A document that is laid out as lines of a bare key and a value, and then sections of a header and
such lines, is read back as the pairs of its lines (`pairs?_lines`) and as its sections
(`sections?_writeSections`). What a value is written as need only be read as that value up to the
end of its line (`Reads`); strings, lists of strings and booleans are.
-/

set_option autoImplicit false
set_option relaxedAutoImplicit false

namespace Bindery.Toml

theorem skipBlanks_cons {c : Char} (hc : isBlank c = false) (s : List Char) :
    skipBlanks (c :: s) = c :: s := by
  simp [skipBlanks, hc]

/-! ### Values -/

/-- A text that is read as a value, whatever comes behind it. -/
structure Reads (text : List Char) (value : Value) : Prop where
  head : ∀ c ∈ text.head?, isBlank c = false
  reads : ∀ {budget fuel : Nat} {rest : List Char}, text.length < budget → text.length < fuel →
    Closes rest → value? budget 0 fuel (text ++ rest) = some (value, rest)

theorem writeString_cons (s : String) :
    ∃ quote body, writeString s = quote :: body ∧ (quote = '"' ∨ quote = '\'') := by
  rw [writeString]
  cases Style.choose s.toList with
  | basic => exact ⟨_, _, rfl, .inl rfl⟩
  | literal => exact ⟨_, _, rfl, .inr rfl⟩
  | basicLines => exact ⟨_, _, rfl, .inl rfl⟩
  | literalLines => exact ⟨_, _, rfl, .inr rfl⟩

theorem value?_writeString {budget depth fuel : Nat} (s : String) {rest : List Char}
    (hrest : Closes rest) (hbudget : (writeString s).length < budget) :
    value? budget depth (fuel + 1) (writeString s ++ rest) = some (.text s, rest) := by
  have hstring := string?_writeString s hrest hbudget
  obtain ⟨quote, body, hwrite, rfl | rfl⟩ := writeString_cons s <;>
  · rw [hwrite, List.cons_append] at hstring ⊢
    simp [value?, hstring]

theorem Reads.string (s : String) : Reads (writeString s) (.text s) where
  head := by
    obtain ⟨quote, body, hwrite, rfl | rfl⟩ := writeString_cons s <;> simp [hwrite, isBlank]
  reads := by
    intro budget fuel rest hbudget hfuel hrest
    obtain ⟨fuel, rfl⟩ := Nat.exists_eq_add_one_of_ne_zero (Nat.ne_zero_of_lt hfuel)
    exact value?_writeString s hrest hbudget

theorem Reads.boolean (value : Bool) :
    Reads (if value then "true" else "false").toList (.boolean value) where
  head := by cases value <;> simp [isBlank]
  reads := by
    intro budget fuel rest _ hfuel _
    obtain ⟨fuel, rfl⟩ := Nat.exists_eq_add_one_of_ne_zero (Nat.ne_zero_of_lt hfuel)
    cases value <;> rfl

/-! ### Lists of strings -/

/-- The lines of the elements of a list. -/
def writeItems (items : List String) : List Char :=
  items.flatMap fun item => [' ', ' ', ' ', ' '] ++ writeString item ++ [',', '\n']

theorem length_writeItems_cons (item : String) (items : List String) :
    (writeItems (item :: items)).length =
      (writeString item).length + (writeItems items).length + 6 := by
  simp [writeItems]
  omega

/-- Between the elements of a list, the reader passes over the end of the line and the indent. -/
theorem skipLines_writeItems {budget : Nat} (hbudget : 2 ≤ budget) (item : String)
    (items : List String) (rest : List Char) :
    skipLines budget ('\n' :: (writeItems (item :: items) ++ rest)) =
      writeString item ++ ',' :: '\n' :: (writeItems items ++ rest) := by
  have hindent : writeItems (item :: items) ++ rest = ' ' :: ' ' :: ' ' :: ' ' ::
      (writeString item ++ ',' :: '\n' :: (writeItems items ++ rest)) := by
    simp [writeItems]
  obtain ⟨budget, rfl⟩ := Nat.exists_eq_add_of_le' hbudget
  obtain ⟨quote, body, hwrite, rfl | rfl⟩ := writeString_cons item <;>
  · rw [hindent, hwrite]
    rfl

section Items

variable {budget depth fuel : Nat} {item : String} {s rest : List Char}

theorem list?_first (hskip : skipLines budget s = writeString item ++ rest) (hrest : Closes rest)
    (hbudget : (writeString item).length < budget) :
    list? budget depth (fuel + 2) true s =
      (list? budget depth (fuel + 1) false rest).map fun (items, s) ↦ (.text item :: items, s) := by
  have hvalue : value? budget depth (fuel + 1) (writeString item ++ rest) =
      some (.text item, rest) := value?_writeString item hrest hbudget
  rw [list?, hskip]
  obtain ⟨quote, body, hwrite, rfl | rfl⟩ := writeString_cons item <;>
  · rw [hwrite, List.cons_append] at hvalue ⊢
    cases hlater : list? budget depth (fuel + 1) false rest with
    | none => simp [hvalue, hlater]
    | some later => simp [hvalue, hlater]

theorem list?_later (hskip : skipLines budget s = writeString item ++ rest) (hrest : Closes rest)
    (hbudget : (writeString item).length < budget) :
    list? budget depth (fuel + 2) false (',' :: s) =
      (list? budget depth (fuel + 1) false rest).map fun (items, s) ↦ (.text item :: items, s) := by
  have hvalue : value? budget depth (fuel + 1) (writeString item ++ rest) =
      some (.text item, rest) := value?_writeString item hrest hbudget
  have hcomma : skipLines budget (',' :: s) = ',' :: s := by cases budget <;> rfl
  rw [list?, hcomma]
  obtain ⟨quote, body, hwrite, rfl | rfl⟩ := writeString_cons item <;>
  · rw [hwrite, List.cons_append] at hvalue hskip
    cases hlater : list? budget depth (fuel + 1) false rest with
    | none => simp [hskip, hvalue, hlater]
    | some later => simp [hskip, hvalue, hlater]

end Items

/-- The elements behind the first are read back. -/
theorem list?_writeItems {budget depth fuel : Nat} (items : List String) (rest : List Char)
    (hbudget : (writeItems items).length + 2 ≤ budget)
    (hfuel : (writeItems items).length < fuel) :
    list? budget depth fuel false (',' :: '\n' :: (writeItems items ++ ']' :: rest)) =
      some (items.map .text, rest) := by
  induction items generalizing fuel with
  | nil =>
    obtain ⟨budget, rfl⟩ := Nat.exists_eq_add_of_le' hbudget
    obtain ⟨fuel, rfl⟩ := Nat.exists_eq_add_one_of_ne_zero (Nat.ne_zero_of_lt hfuel)
    rfl
  | cons item items ih =>
    rw [length_writeItems_cons] at hbudget hfuel
    obtain ⟨fuel, rfl⟩ := Nat.exists_eq_add_of_le' (by omega : 2 ≤ fuel)
    have hskip := skipLines_writeItems (by omega : 2 ≤ budget) item items (']' :: rest)
    rw [list?_later hskip (by simp [Closes]) (by omega), ih (by omega) (by omega)]
    rfl

theorem Reads.strings (items : List String) :
    Reads (writeStrings items) (.list (items.map .text)) where
  head := by
    rw [writeStrings.eq_def]
    split <;> simp [isBlank]
  reads := by
    intro budget fuel rest hbudget hfuel hrest
    have hclosed : Closes (']' :: rest) := by simp [Closes]
    match items with
    | [] =>
      obtain ⟨fuel, rfl⟩ := Nat.exists_eq_add_of_le' (show 2 ≤ fuel from Nat.le_of_lt hfuel)
      obtain ⟨budget, rfl⟩ := Nat.exists_eq_add_one_of_ne_zero (Nat.ne_zero_of_lt hbudget)
      rfl
    | [item] =>
      simp only [writeStrings, List.length_append, List.length_cons, List.length_nil]
        at hbudget hfuel
      obtain ⟨fuel, rfl⟩ := Nat.exists_eq_add_of_le' (by omega : 3 ≤ fuel)
      have hskip : skipLines budget (writeString item ++ ']' :: rest) =
          writeString item ++ ']' :: rest := by
        obtain ⟨quote, body, hwrite, rfl | rfl⟩ := writeString_cons item <;>
        · rw [hwrite]
          cases budget <;> rfl
      have hend : list? budget 1 (fuel + 1) false (']' :: rest) = some ([], rest) := by
        cases budget <;> rfl
      have hitems : list? budget 1 (fuel + 2) true (writeString item ++ ']' :: rest) =
          some ([.text item], rest) := by
        rw [list?_first hskip hclosed (by omega), hend]
        rfl
      simp [writeStrings, value?, nestingLimit, hitems]
    | item :: next :: items =>
      have hlist : writeStrings (item :: next :: items) =
          '[' :: '\n' :: (writeItems (item :: next :: items) ++ [']']) := by
        simp [writeStrings, writeItems]
      rw [hlist] at hbudget hfuel ⊢
      simp only [List.length_cons, List.length_append, length_writeItems_cons] at hbudget hfuel
      obtain ⟨fuel, rfl⟩ := Nat.exists_eq_add_of_le' (by omega : 3 ≤ fuel)
      have hskip := skipLines_writeItems (by omega : 2 ≤ budget) item (next :: items)
        (']' :: rest)
      have hlater : list? budget 1 (fuel + 1) false
          (',' :: '\n' :: (writeItems (next :: items) ++ ']' :: rest)) =
            some ((next :: items).map .text, rest) := by
        refine list?_writeItems (next :: items) rest ?_ ?_ <;>
        · rw [length_writeItems_cons]
          omega
      have hitems : list? budget 1 (fuel + 2) true
          ('\n' :: (writeItems (item :: next :: items) ++ ']' :: rest)) =
            some ((item :: next :: items).map .text, rest) := by
        rw [list?_first hskip (by simp [Closes]) (by omega), hlater]
        rfl
      simp [value?, nestingLimit, hitems]

/-! ### Keys -/

/-- A key that stands in a document as it is. -/
def IsBare (key : String) : Prop := key.toList ≠ [] ∧ ∀ c ∈ key.toList, isKeyChar c = true

instance (key : String) : Decidable (IsBare key) :=
  decidable_of_iff (key.toList ≠ [] ∧ key.toList.all isKeyChar = true) (by simp [IsBare])

theorem isBlank_of_isKeyChar {c : Char} (hc : isKeyChar c = true) : isBlank c = false := by
  rw [isBlank, Bool.or_eq_false_iff, decide_eq_false_iff_not, decide_eq_false_iff_not]
  refine ⟨?_, ?_⟩ <;>
  · rintro rfl
    exact absurd hc (by decide)

/-- A bare key is read as one part. -/
theorem key?_append {budget : Nat} {key : String} (hkey : IsBare key) {rest after : List Char}
    (hrest : ∀ c ∈ rest.head?, isKeyChar c = false) (hafter : skipBlanks rest = after)
    (hpoint : ∀ c ∈ after.head?, c ≠ '.') :
    key? (budget + 1) (key.toList ++ rest) = some (([], key), after) := by
  obtain ⟨hnil, hchars⟩ := hkey
  have hblanks : skipBlanks (key.toList ++ rest) = key.toList ++ rest := by
    cases hlist : key.toList with
    | nil => exact absurd hlist hnil
    | cons c characters =>
      exact skipBlanks_cons (isBlank_of_isKeyChar (hchars c (by simp [hlist]))) _
  have htake : (key.toList ++ rest).takeWhile isKeyChar = key.toList := by
    rw [List.takeWhile_append_of_pos hchars]
    cases rest with
    | nil => simp
    | cons c rest => simp [hrest c rfl]
  have hdrop : (key.toList ++ rest).dropWhile isKeyChar = rest := by
    rw [List.dropWhile_append_of_pos hchars]
    cases rest with
    | nil => rfl
    | cons c rest => simp [hrest c rfl]
  have hpart : keyPart? (budget + 1) (key.toList ++ rest) = some (key, rest) := by
    rw [keyPart?, htake, hdrop]
    simp [hnil]
  have hparts : keyParts? (budget + 1) (budget + 1) (key.toList ++ rest) =
      some ([key], after) := by
    rw [keyParts?, hblanks, hpart]
    simp only [Option.bind_eq_bind, Option.bind_some, hafter]
    split
    · rename_i t
      exact absurd rfl (hpoint '.' rfl)
    · rfl
  rw [key?, hparts]
  rfl

/-! ### Lines -/

/-- A bare key with its value and what the value is written as. -/
structure Line where
  key : String
  text : List Char
  value : Value
  bare : IsBare key
  reads : Reads text value

def Line.write (line : Line) : List Char :=
  line.key.toList ++ [' ', '=', ' '] ++ line.text ++ ['\n']

def Line.pair (line : Line) : Pair := ⟨[], line.key, line.value⟩

theorem Line.exists_write (line : Line) :
    ∃ c written, line.write = c :: written ∧ isKeyChar c = true := by
  obtain ⟨hnil, hchars⟩ := line.bare
  cases hlist : line.key.toList with
  | nil => exact absurd hlist hnil
  | cons c characters =>
    exact ⟨c, _, by rw [Line.write, hlist]; rfl, hchars c (by simp [hlist])⟩

theorem pair?_write {budget : Nat} (line : Line) (rest : List Char)
    (hbudget : line.write.length < budget) :
    pair? budget (line.write ++ rest) = some (line.pair, rest) := by
  obtain ⟨budget, rfl⟩ := Nat.exists_eq_add_one_of_ne_zero (Nat.ne_zero_of_lt hbudget)
  simp only [Line.write, List.length_append, List.length_cons] at hbudget
  have hkey : key? (budget + 1)
      (line.key.toList ++ ' ' :: '=' :: ' ' :: (line.text ++ '\n' :: rest)) =
        some (([], line.key), '=' :: ' ' :: (line.text ++ '\n' :: rest)) :=
    key?_append line.bare (by simp [isKeyChar]) rfl (by simp)
  have hblanks : skipBlanks (' ' :: (line.text ++ '\n' :: rest)) =
      line.text ++ '\n' :: rest := by
    have hhead := line.reads.head
    cases htext : line.text with
    | nil => rfl
    | cons c text => exact skipBlanks_cons (hhead c (by rw [htext]; rfl)) _
  have hvalue : value? (budget + 1) 0 (budget + 1) (line.text ++ '\n' :: rest) =
      some (line.value, '\n' :: rest) :=
    line.reads.reads (by omega) (by omega) (by simp [Closes])
  have hwrite : line.write ++ rest =
      line.key.toList ++ ' ' :: '=' :: ' ' :: (line.text ++ '\n' :: rest) := by
    simp [Line.write]
  rw [pair?, hwrite, hkey]
  simp only [Option.bind_eq_bind, Option.bind_some, hblanks, hvalue]
  rfl

/-- The lines of a table. -/
def writeLines (lines : List Line) : List Char := lines.flatMap Line.write

theorem writeLines_cons (line : Line) (lines : List Line) :
    writeLines (line :: lines) = line.write ++ writeLines lines := rfl

/-- Lines are read up to the header behind them. -/
theorem pairs?_writeLines {budget fuel : Nat} (lines : List Line) {rest after : List Char}
    (hrest : ∀ fuel, 2 ≤ fuel → pairs? budget fuel rest = some ([], after))
    (hbudget : (writeLines lines).length < budget) (hfuel : (writeLines lines).length + 2 ≤ fuel) :
    pairs? budget fuel (writeLines lines ++ rest) = some (lines.map Line.pair, after) := by
  induction lines generalizing fuel with
  | nil => exact hrest fuel hfuel
  | cons line lines ih =>
    rw [writeLines_cons, List.length_append] at hbudget hfuel
    obtain ⟨fuel, rfl⟩ := Nat.exists_eq_add_one_of_ne_zero (by omega : fuel ≠ 0)
    have hpair := pair?_write line (writeLines lines ++ rest) (by omega : _ < budget)
    have hlength : 1 ≤ line.write.length := by
      simp only [Line.write, List.length_append, List.length_cons]
      omega
    have htail : pairs? budget fuel (writeLines lines ++ rest) =
        some (lines.map Line.pair, after) := ih (by omega) (by omega)
    obtain ⟨c, written, hwrite, hc⟩ := line.exists_write
    have hother : ∀ d, isKeyChar d = false → c ≠ d := by
      rintro d hd rfl
      rw [hc] at hd
      exact Bool.noConfusion hd
    rw [writeLines_cons, List.append_assoc, pairs?]
    rw [hwrite, List.cons_append] at hpair ⊢
    have hskip : skipBlanks (c :: (written ++ (writeLines lines ++ rest))) =
        c :: (written ++ (writeLines lines ++ rest)) := skipBlanks_cons (isBlank_of_isKeyChar hc) _
    rw [hskip]
    simp only [hother '[' (by decide), hother '#' (by decide), hother '\n' (by decide),
      hother '\r' (by decide), or_self, if_false, hpair, htail, Option.bind_eq_bind,
      Option.bind_some]
    rfl

/-! ### Sections -/

/-- A header with the lines below it. -/
structure Block where
  element : Bool
  key : String
  bare : IsBare key
  lines : List Line
  distinct : (lines.map Line.key).Nodup

namespace Block

def header (block : Block) : List Char :=
  if block.element then ['[', '['] ++ block.key.toList ++ [']', ']', '\n']
  else ['['] ++ block.key.toList ++ [']', '\n']

def write (block : Block) : List Char := block.header ++ writeLines block.lines

/-- What a block is read as. -/
def toSection (block : Block) : Section :=
  ⟨block.element, [], block.key, block.lines.map Line.pair⟩

theorem header?_header (budget : Nat) (block : Block) (rest : List Char) :
    header? (budget + 1) (block.header ++ rest) =
      some ((block.element, [], block.key), rest) := by
  have hkey : ∀ s, key? (budget + 1) (block.key.toList ++ ']' :: s) =
      some (([], block.key), ']' :: s) :=
    fun s ↦ key?_append block.bare (by simp [isKeyChar]) rfl (by simp)
  obtain ⟨hnil, hchars⟩ := block.bare
  rw [header]
  split_ifs with helement
  · have hwrite : ['[', '['] ++ block.key.toList ++ [']', ']', '\n'] ++ rest =
        '[' :: '[' :: (block.key.toList ++ ']' :: ']' :: '\n' :: rest) := by simp
    rw [hwrite, header?, hkey]
    simp only [helement]
    rfl
  · have hwrite : ['['] ++ block.key.toList ++ [']', '\n'] ++ rest =
        '[' :: (block.key.toList ++ ']' :: '\n' :: rest) := by simp
    rw [hwrite, header?]
    · simp only [hkey, Bool.not_eq_true] at helement ⊢
      rw [helement]
      rfl
    · intro s heq
      cases hlist : block.key.toList with
      | nil => exact hnil hlist
      | cons c characters =>
        rw [hlist, List.cons_append, List.cons.injEq] at heq
        have hc := hchars c (by simp [hlist])
        rw [heq.1] at hc
        exact absurd hc (by decide)

end Block

/-- Blocks with an empty line before each. -/
def spaceBlocks (blocks : List Block) : List Char := blocks.flatMap fun block ↦ '\n' :: block.write

/-- Blocks with empty lines between them. -/
def writeBlocks : List Block → List Char
  | [] => []
  | block :: blocks => block.write ++ spaceBlocks blocks

theorem exists_writeBlocks (block : Block) (blocks : List Block) :
    ∃ s, writeBlocks (block :: blocks) = '[' :: s := by
  rw [writeBlocks, Block.write, Block.header]
  split_ifs <;> exact ⟨_, rfl⟩

theorem pairs?_writeBlocks {budget fuel : Nat} (hfuel : 1 ≤ fuel) (blocks : List Block) :
    pairs? budget fuel (writeBlocks blocks) = some ([], writeBlocks blocks) := by
  obtain ⟨fuel, rfl⟩ := Nat.exists_eq_add_of_le' hfuel
  cases blocks with
  | nil => rfl
  | cons block blocks =>
    obtain ⟨s, hs⟩ := exists_writeBlocks block blocks
    rw [hs]
    rfl

theorem pairs?_spaceBlocks {budget fuel : Nat} (hfuel : 2 ≤ fuel) (blocks : List Block) :
    pairs? budget fuel (spaceBlocks blocks) = some ([], writeBlocks blocks) := by
  obtain ⟨fuel, rfl⟩ := Nat.exists_eq_add_of_le' hfuel
  cases blocks with
  | nil => rfl
  | cons block blocks =>
    have hblocks : spaceBlocks (block :: blocks) = '\n' :: writeBlocks (block :: blocks) := rfl
    rw [hblocks]
    exact pairs?_writeBlocks (by omega : 1 ≤ fuel + 1) (block :: blocks)

theorem length_writeBlocks_le (blocks : List Block) :
    (writeBlocks blocks).length ≤ (spaceBlocks blocks).length := by
  cases blocks with
  | nil => rfl
  | cons block blocks => exact Nat.le_succ _

/-- Blocks are read back as sections. -/
theorem sections?_writeBlocks {budget fuel : Nat} (blocks : List Block)
    (hbudget : (writeBlocks blocks).length < budget)
    (hfuel : (writeBlocks blocks).length < fuel) :
    sections? budget fuel (writeBlocks blocks) = some (blocks.map Block.toSection) := by
  induction blocks generalizing fuel with
  | nil =>
    obtain ⟨fuel, rfl⟩ := Nat.exists_eq_add_one_of_ne_zero (Nat.ne_zero_of_lt hfuel)
    rfl
  | cons block blocks ih =>
    have hwrite : writeBlocks (block :: blocks) =
        block.header ++ (writeLines block.lines ++ spaceBlocks blocks) := by
      rw [writeBlocks, Block.write, List.append_assoc]
    have hshort := length_writeBlocks_le blocks
    have hheader : 3 ≤ block.header.length := by
      rw [Block.header]
      split_ifs <;> simp
    rw [hwrite, List.length_append, List.length_append] at hbudget hfuel
    obtain ⟨fuel, rfl⟩ := Nat.exists_eq_add_one_of_ne_zero (Nat.ne_zero_of_lt hfuel)
    obtain ⟨budget, rfl⟩ := Nat.exists_eq_add_one_of_ne_zero (Nat.ne_zero_of_lt hbudget)
    have hhead := Block.header?_header budget block
      (writeLines block.lines ++ spaceBlocks blocks)
    have hpairs : pairs? (budget + 1) (budget + 1)
        (writeLines block.lines ++ spaceBlocks blocks) =
          some (block.lines.map Line.pair, writeBlocks blocks) :=
      pairs?_writeLines block.lines (fun _ hfuel ↦ pairs?_spaceBlocks hfuel blocks) (by omega)
        (by omega)
    have htail : sections? (budget + 1) fuel (writeBlocks blocks) =
        some (blocks.map Block.toSection) := ih (by omega) (by omega)
    obtain ⟨s, hs⟩ := exists_writeBlocks block blocks
    rw [hs] at hwrite ⊢
    rw [sections?, hwrite, hhead]
    · simp only [Option.bind_eq_bind, Option.bind_some, hpairs, htail]
      rfl
    · simp

/-! ### Tables -/

/-- The entries of lines. -/
def entriesOf (lines : List Line) : Entries := lines.map fun line ↦ (line.key, .value line.value)

theorem lookup_append_of_eq_none {key : String} {first second : Entries}
    (h : first.lookup key = none) : (first ++ second).lookup key = second.lookup key := by
  rw [List.lookup_append, h, Option.none_or]

theorem put_append {key : String} {first : Entries} (h : first.lookup key = none) (node : Node)
    (second : Entries) : put key node (first ++ second) = first ++ put key node second := by
  induction first with
  | nil => rfl
  | cons entry first ih =>
    obtain ⟨name, old⟩ := entry
    rw [List.lookup_cons] at h
    have hname : name ≠ key := by
      rintro rfl
      simp at h
    have hfirst : first.lookup key = none := by
      simpa [show (key == name) = false by simpa using hname.symm] using h
    rw [List.cons_append, put, if_neg hname, ih hfirst]
    rfl

theorem lookup_entriesOf_eq_none {key : String} {lines : List Line}
    (h : key ∉ lines.map Line.key) : (entriesOf lines).lookup key = none := by
  rw [List.lookup_eq_none_iff]
  intro entry hentry
  obtain ⟨line, hline, rfl⟩ := List.mem_map.mp hentry
  simp only [bne_iff_ne, ne_eq]
  rintro rfl
  exact h (List.mem_map.mpr ⟨line, hline, rfl⟩)

/-- Lines with different keys are added to a table one after another. -/
theorem addPairs_append (before after : List Line)
    (hdistinct : ((before ++ after).map Line.key).Nodup) :
    addPairs (after.map Line.pair) (entriesOf before) = some (entriesOf (before ++ after)) := by
  induction after generalizing before with
  | nil => simp [addPairs]
  | cons line after ih =>
    have hfresh : (entriesOf before).lookup line.key = none := by
      apply lookup_entriesOf_eq_none
      intro hmem
      rw [List.map_append, List.nodup_append] at hdistinct
      exact hdistinct.2.2 _ hmem _ List.mem_cons_self rfl
    have hadd : addDotted true (entriesOf before) line.key line.value [] =
        some (entriesOf (before ++ [line])) := by
      have hput := put_append hfresh (.value line.value) []
      rw [List.append_nil] at hput
      rw [addDotted, hfresh, hput]
      simp [entriesOf, put]
    have hnext := ih (before ++ [line]) (by simpa using hdistinct)
    rw [addPairs] at hnext ⊢
    rw [List.map_cons, List.foldlM_cons]
    change (addDotted true (entriesOf before) line.key line.value []).bind _ = _
    rw [hadd, Option.bind_some, hnext, List.append_assoc]
    rfl

theorem toEntries_entriesOf (lines : List Line) :
    toEntries (entriesOf lines) = lines.map fun line ↦ (line.key, line.value) := by
  induction lines with
  | nil => rfl
  | cons line lines ih =>
    have hcons : entriesOf (line :: lines) = (line.key, .value line.value) :: entriesOf lines := rfl
    simp [hcons, toEntries, Node.toValue, ih]

theorem toElements_map (tables : List (List Line)) :
    toElements (tables.map entriesOf) =
      tables.map fun lines ↦ .table (toEntries (entriesOf lines)) := by
  induction tables with
  | nil => rfl
  | cons lines tables ih => simp [toElements, ih]

theorem put_new {key : String} {root : Entries} (hroot : root.lookup key = none) (node : Node) :
    put key node root = root ++ [(key, node)] := by
  have hput := put_append hroot node []
  rwa [List.append_nil] at hput

theorem put_last {key : String} {root : Entries} (hroot : root.lookup key = none)
    (node old : Node) : put key node (root ++ [(key, old)]) = root ++ [(key, node)] := by
  rw [put_append hroot, put, if_pos rfl]

namespace Block

/-- A block with one pair of brackets is a table of its own. -/
theorem addTo_table {block : Block} (helement : block.element = false) {root : Entries}
    (hroot : root.lookup block.key = none) :
    block.toSection.addTo root =
      some (root ++ [(block.key, .table .opened (entriesOf block.lines))]) := by
  have hpairs : addPairs (block.lines.map Line.pair) [] = some (entriesOf block.lines) :=
    addPairs_append [] block.lines block.distinct
  simp [Section.addTo, toSection, helement, hroot, hpairs, put_new hroot]

/-- The first block with two pairs of brackets begins a list of tables. -/
theorem addTo_first {block : Block} (helement : block.element = true) {root : Entries}
    (hroot : root.lookup block.key = none) :
    block.toSection.addTo root =
      some (root ++ [(block.key, .tables [entriesOf block.lines])]) := by
  have hpairs : addPairs (block.lines.map Line.pair) [] = some (entriesOf block.lines) :=
    addPairs_append [] block.lines block.distinct
  simp [Section.addTo, toSection, helement, hroot, hpairs, put_new hroot]

/-- Every further block with two pairs of brackets is an element of the list of tables. -/
theorem addTo_later {block : Block} (helement : block.element = true) {root : Entries}
    (hroot : root.lookup block.key = none) (elements : List Entries) :
    block.toSection.addTo (root ++ [(block.key, .tables elements)]) =
      some (root ++ [(block.key, .tables (elements ++ [entriesOf block.lines]))]) := by
  have hpairs : addPairs (block.lines.map Line.pair) [] = some (entriesOf block.lines) :=
    addPairs_append [] block.lines block.distinct
  have hlookup : (root ++ [(block.key, Node.tables elements)]).lookup block.key =
      some (.tables elements) := by
    rw [lookup_append_of_eq_none hroot, List.lookup_cons_self]
  simp [Section.addTo, toSection, helement, hlookup, hpairs, put_last hroot]

end Block

/-- The root after sections with headers of one part have been added. -/
def addSections (root : Entries) (sections : List Section) : Option Entries :=
  sections.foldlM (fun root part ↦ changeAt part.addTo root part.path) root

theorem addSections_cons {root next : Entries} {block : Block} (sections : List Section)
    (h : block.toSection.addTo root = some next) :
    addSections root (block.toSection :: sections) = addSections next sections := by
  have hchange : changeAt block.toSection.addTo root block.toSection.path = some next := h
  rw [addSections, List.foldlM_cons, hchange]
  rfl

/-- Blocks with one key and two pairs of brackets are elements of one list. -/
theorem addSections_elements {key : String} {root : Entries} (hroot : root.lookup key = none)
    (blocks : List Block) (hblocks : ∀ block ∈ blocks, block.element = true ∧ block.key = key)
    (elements : List Entries) :
    addSections (root ++ [(key, .tables elements)]) (blocks.map Block.toSection) =
      some (root ++
        [(key, .tables (elements ++ blocks.map fun block ↦ entriesOf block.lines))]) := by
  induction blocks generalizing elements with
  | nil => simp [addSections]
  | cons block blocks ih =>
    obtain ⟨⟨helement, rfl⟩, htail⟩ := List.forall_mem_cons.mp hblocks
    rw [List.map_cons, addSections_cons _ (block.addTo_later helement hroot elements),
      ih htail]
    simp

/-! ### Documents -/

/-- Lines, and blocks behind them. -/
def writeDocument (lines : List Line) (blocks : List Block) : List Char :=
  match lines with
  | [] => writeBlocks blocks
  | lines => writeLines lines ++ spaceBlocks blocks

theorem dropMark_writeDocument (lines : List Line) (blocks : List Block) :
    dropMark (writeDocument lines blocks) = writeDocument lines blocks := by
  have hmark : ∀ c s, c ≠ '\ufeff' → dropMark (c :: s) = c :: s := by
    intro c s hc
    rw [dropMark.eq_def]
    split
    · rename_i heq
      exact absurd (List.cons.inj heq).1 hc
    · rfl
  cases lines with
  | nil =>
    cases blocks with
    | nil => rfl
    | cons block blocks =>
      obtain ⟨s, hs⟩ := exists_writeBlocks block blocks
      rw [writeDocument, hs]
      exact hmark '[' s (by decide)
  | cons line lines =>
    obtain ⟨c, written, hwrite, hc⟩ := line.exists_write
    rw [writeDocument, writeLines_cons, hwrite]
    · refine hmark c _ ?_
      rintro rfl
      exact absurd hc (by decide)
    · simp

/-- A document of lines and at least one block is read as the table that they make. -/
theorem parse?_writeDocument (lines : List Line) (block : Block) (blocks : List Block)
    (hdistinct : (lines.map Line.key).Nodup) :
    parse? (String.ofList (writeDocument lines (block :: blocks))) =
      (addSections (entriesOf lines) ((block :: blocks).map Block.toSection)).map toEntries := by
  have hroot : addPairs (lines.map Line.pair) [] = some (entriesOf lines) :=
    addPairs_append [] lines hdistinct
  have hshort : (writeBlocks (block :: blocks)).length <
      (writeDocument lines (block :: blocks)).length + 1 := by
    cases lines with
    | nil => exact Nat.lt_succ_self _
    | cons line lines =>
      have hspace := length_writeBlocks_le (block :: blocks)
      rw [writeDocument, List.length_append]
      · omega
      · simp
  have hpairs : pairs? ((writeDocument lines (block :: blocks)).length + 1)
      ((writeDocument lines (block :: blocks)).length + 1) (writeDocument lines (block :: blocks)) =
        some (lines.map Line.pair, writeBlocks (block :: blocks)) := by
    cases lines with
    | nil => exact pairs?_writeBlocks (Nat.succ_pos _) (block :: blocks)
    | cons line lines =>
      have hspace : 1 ≤ (spaceBlocks (block :: blocks)).length := Nat.succ_pos _
      rw [writeDocument]
      · refine pairs?_writeLines (line :: lines)
          (fun _ hfuel ↦ pairs?_spaceBlocks hfuel (block :: blocks)) ?_ ?_
        · rw [List.length_append]
          omega
        · rw [List.length_append]
          omega
      · simp
  have hsections := sections?_writeBlocks (block :: blocks) hshort hshort
  rw [parse?]
  simp only [String.toList_ofList, dropMark_writeDocument, hpairs, hsections, hroot,
    Option.bind_eq_bind, Option.bind_some]
  rw [← addSections]
  cases addSections (entriesOf lines) ((block :: blocks).map Block.toSection) <;> rfl

end Bindery.Toml
