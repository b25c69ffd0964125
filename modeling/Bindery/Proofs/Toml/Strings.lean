import Bindery.Toml.Text
import Bindery.Toml.Writer
import Mathlib.Data.List.TakeWhile

/-!
# Strings that are written and read

A string is read back from any of the notations that it may be written in (`string?_writeString`),
where no quote comes behind it. In a basic notation every character is read back from what stands
for it (`escapeChar_cases`). In a notation over several lines the quotes at the end of the string
run into the closing ones: the string is cut into the quotes at its start and what follows them
(`escapeFrom_cases`, `exists_quotes`), so that it is known where three quotes close it.
-/

set_option autoImplicit false
set_option relaxedAutoImplicit false

namespace Bindery.Toml

/-- A text that can follow a value: it is empty, or goes on with the end of the line, a comma or a
closing bracket. -/
def Closes (s : List Char) : Prop := ∀ c ∈ s.head?, c = '\n' ∨ c = ',' ∨ c = ']'

theorem Closes.head?_ne {s : List Char} (h : Closes s) {c : Char}
    (hc : c ≠ '\n' ∧ c ≠ ',' ∧ c ≠ ']') : ∀ d ∈ s.head?, d ≠ c := by
  rintro d hd rfl
  rcases h d hd with heq | heq | heq
  · exact hc.1 heq
  · exact hc.2.1 heq
  · exact hc.2.2 heq

/-! ### Characters -/

theorem isPlain_of_not_isControl {c : Char} (hcontrol : isControl c = false) (hnewline : c ≠ '\n') :
    isPlain c = true := by
  simp only [isControl, Bool.or_eq_false_iff, Bool.and_eq_false_iff, decide_eq_false_iff_not,
    not_not, hnewline, or_false] at hcontrol
  simp only [isPlain, Bool.or_eq_true, decide_eq_true_eq, ne_eq, Bool.and_eq_true]
  rcases hcontrol with ⟨hlarge | htab, hdelete⟩
  · exact .inr ⟨by omega, hdelete⟩
  · exact .inl htab

theorem hexDigit?_hexUpper : ∀ n < 16, hexDigit? (hexUpper n) = some n := by decide

/-- The four digits of a control are read as the control. -/
theorem escape?_hexUpper {c : Char} (hc : isControl c = true) (rest : List Char) :
    escape? ('u' :: '0' :: '0' :: hexUpper (c.toNat / 16) :: hexUpper (c.toNat % 16) :: rest) =
      some (c, rest) := by
  have hsmall : c.toNat < 0x80 := by
    simp only [isControl, Bool.or_eq_true, Bool.and_eq_true, decide_eq_true_eq] at hc
    omega
  have hhigh := hexDigit?_hexUpper (c.toNat / 16) (by omega)
  have hlow := hexDigit?_hexUpper (c.toNat % 16) (by omega)
  have hzero : hexDigit? '0' = some 0 := by decide
  have hvalue : ((0 * 16 + 0) * 16 + c.toNat / 16) * 16 + c.toNat % 16 = c.toNat := by omega
  have hnumber : hexNumber? 4 0
      ('0' :: '0' :: hexUpper (c.toNat / 16) :: hexUpper (c.toNat % 16) :: rest) =
        some (c.toNat, rest) := by
    simp only [hexNumber?, hzero, hhigh, hlow, hvalue]
  have hvalid : c.toNat.isValidChar := c.valid
  have hback := Char.ofNat_toNat c
  rw [Char.ofNat, dif_pos hvalid] at hback
  rw [escape?, codePoint?, hnumber]
  change (if h : c.toNat.isValidChar then some (Char.ofNatAux c.toNat h, rest) else none) = _
  rw [dif_pos hvalid, hback]

/-- A character other than a quote is written behind a backslash, as what an escape is read from,
or as itself. -/
theorem escapeChar_cases (lines : Bool) {c : Char} (hquote : c ≠ '"') :
    (∃ d escaped, escapeChar lines c = '\\' :: d :: escaped ∧
      isBlank d = false ∧ d ≠ '\n' ∧ d ≠ '\r' ∧
      ∀ rest, escape? (d :: escaped ++ rest) = some (c, rest)) ∨
    (escapeChar lines c = [c] ∧ c ≠ '\\' ∧ c ≠ '\r' ∧
      (isPlain c = true ∨ lines = true ∧ c = '\n')) := by
  by_cases hshort : c ∈ ['\x08', '\t', '\x0c', '\r', '\\']
  · simp only [List.mem_cons, List.not_mem_nil, or_false] at hshort
    rcases hshort with rfl | rfl | rfl | rfl | rfl <;>
      exact .inl ⟨_, [], rfl, by decide, by decide, by decide, fun _ ↦ rfl⟩
  · simp only [List.mem_cons, List.not_mem_nil, or_false, not_or] at hshort
    obtain ⟨hbackspace, htab, hfeed, hreturn, hbackslash⟩ := hshort
    by_cases hnewline : c = '\n'
    · subst hnewline
      cases lines with
      | true => exact .inr ⟨rfl, by decide, by decide, .inr ⟨rfl, rfl⟩⟩
      | false => exact .inl ⟨'n', [], rfl, by decide, by decide, by decide, fun _ ↦ rfl⟩
    · cases hcontrol : isControl c with
      | true =>
        refine .inl ⟨'u', ['0', '0', hexUpper (c.toNat / 16), hexUpper (c.toNat % 16)], ?_,
          by decide, by decide, by decide, fun rest ↦ escape?_hexUpper hcontrol rest⟩
        simp only [escapeChar, hbackspace, htab, hnewline, hfeed, hreturn, hbackslash, hcontrol,
          if_false, if_true]
      | false =>
        refine .inr ⟨?_, hbackslash, hreturn, .inl (isPlain_of_not_isControl hcontrol hnewline)⟩
        simp only [escapeChar, hbackspace, htab, hnewline, hfeed, hreturn, hbackslash, hcontrol,
          if_false, Bool.false_eq_true]

/-! ### Strings on one line -/

/-- A string in the basic notation on one line is read back up to its closing quote. -/
theorem basicBody?_escapeFrom {fuel : Nat} (run : Nat) (s rest : List Char)
    (hfuel : (escapeFrom false 0 run s).length < fuel) :
    basicBody? fuel (escapeFrom false 0 run s ++ '"' :: rest) = some (s, rest) := by
  induction s generalizing fuel run with
  | nil =>
    obtain ⟨fuel, rfl⟩ := Nat.exists_eq_add_one_of_ne_zero (Nat.ne_zero_of_lt hfuel)
    rfl
  | cons c s ih =>
    obtain ⟨fuel, rfl⟩ := Nat.exists_eq_add_one_of_ne_zero (Nat.ne_zero_of_lt hfuel)
    rw [escapeFrom] at hfuel ⊢
    split_ifs at hfuel ⊢ with hquote hrun
    · exact absurd hrun (Nat.not_lt_zero run)
    · subst hquote
      simp only [List.length_cons] at hfuel
      rw [List.cons_append, List.cons_append, basicBody?, if_neg (by decide), if_pos rfl]
      simp only [escape?, Option.bind_eq_bind, Option.bind_some]
      rw [ih 0 (by omega)]
      rfl
    · rw [List.length_append] at hfuel
      rcases escapeChar_cases false hquote with
        ⟨d, escaped, hwrite, -, -, -, hescape⟩ | ⟨hwrite, hbackslash, -, hplain⟩
      · rw [hwrite, List.length_cons] at hfuel
        rw [hwrite, List.cons_append, List.cons_append, basicBody?, if_neg (by decide),
          if_pos rfl, List.append_assoc, hescape]
        simp only [Option.bind_eq_bind, Option.bind_some]
        rw [ih 0 (by omega)]
        rfl
      · rw [hwrite, List.length_singleton] at hfuel
        have hplain : isPlain c = true := by simpa using hplain
        rw [hwrite, List.singleton_append, List.cons_append, basicBody?, if_neg hquote,
          if_neg hbackslash, if_pos hplain, ih 0 (by omega)]
        rfl

/-- A string without the quote of the literal notation is read back as it is. -/
theorem literalBody?_append {s : List Char} (rest : List Char)
    (hs : ∀ c ∈ s, c ≠ '\'' ∧ isPlain c = true) :
    literalBody? (s ++ '\'' :: rest) = some (s, rest) := by
  induction s with
  | nil => rfl
  | cons c s ih =>
    obtain ⟨⟨hquote, hplain⟩, hs⟩ := List.forall_mem_cons.mp hs
    rw [List.cons_append, literalBody?, if_neg hquote, if_pos hplain, ih hs]
    rfl

/-! ### Quotes over several lines -/

/-- Up to two quotes in front of the three that close a string belong to it. -/
theorem closing?_replicate {quote : Char} {k : Nat} (hk : k ≤ 2) {rest : List Char}
    (hrest : ∀ c ∈ rest.head?, c ≠ quote) :
    closing? quote (List.replicate k quote ++ quote :: quote :: quote :: rest) =
      some (List.replicate k quote, rest) := by
  have hquotes : List.replicate k quote ++ quote :: quote :: quote :: rest =
      List.replicate (k + 3) quote ++ rest := by
    rw [← List.replicate_append_replicate, List.append_assoc]
    rfl
  have htake : (List.replicate (k + 3) quote ++ rest).takeWhile (· = quote) =
      List.replicate (k + 3) quote := by
    rw [List.takeWhile_append_of_pos (by simp)]
    cases rest with
    | nil => simp
    | cons c rest => simp [hrest c rfl]
  have hextra : min (k + 3 - 3) 2 = k := by omega
  rw [hquotes, closing?, htake]
  simp only [List.length_replicate, hextra]
  rw [if_neg (by omega), List.drop_append_of_le_length (by simp),
    List.drop_of_length_le (by simp), List.nil_append]

/-- Fewer than three quotes close nothing. -/
theorem closing?_eq_none {quote d : Char} {k : Nat} (hk : k < 3) (hd : d ≠ quote)
    (rest : List Char) : closing? quote (List.replicate k quote ++ d :: rest) = none := by
  have htake : (List.replicate k quote ++ d :: rest).takeWhile (· = quote) =
      List.replicate k quote := by
    rw [List.takeWhile_append_of_pos (by simp)]
    simp [hd]
  rw [closing?, htake, List.length_replicate]
  simp [hk]

theorem newline?_cons {c : Char} (hnewline : c ≠ '\n') (hreturn : c ≠ '\r') (s : List Char) :
    newline? (c :: s) = none := by
  rw [newline?.eq_def]
  split <;> simp_all

/-- What is written for a string over several lines starts with at most two quotes, and then ends
with the string or goes on with another character. -/
theorem escapeFrom_cases {run : Nat} (hrun : run ≤ 2) (s : List Char) :
    (∃ k, k + run ≤ 2 ∧ s = List.replicate k '"' ∧
      escapeFrom true 2 run s = List.replicate k '"') ∨
    ∃ k d t, k + run ≤ 2 ∧ d ≠ '"' ∧ escapeFrom true 2 run s = List.replicate k '"' ++ d :: t := by
  induction s generalizing run with
  | nil => exact .inl ⟨0, by omega, rfl, rfl⟩
  | cons c s ih =>
    rw [escapeFrom]
    split_ifs with hquote hmore
    · subst hquote
      have hrun : run + 1 ≤ 2 := hmore
      rcases ih hrun with ⟨k, hk, hs, hwrite⟩ | ⟨k, d, t, hk, hd, hwrite⟩
      · exact .inl ⟨k + 1, by omega, by rw [hs, List.replicate_succ],
          by rw [hwrite, List.replicate_succ]⟩
      · exact .inr ⟨k + 1, d, t, by omega, hd, by rw [hwrite, List.replicate_succ]; rfl⟩
    · exact .inr ⟨0, '\\', _, by omega, by decide, rfl⟩
    · rcases escapeChar_cases true hquote with ⟨d, escaped, hwrite, -⟩ | ⟨hwrite, -⟩
      · exact .inr ⟨0, '\\', _, by omega, by decide, by rw [hwrite]; rfl⟩
      · exact .inr ⟨0, c, _, by omega, hquote, by rw [hwrite]; rfl⟩

/-- A string without three quotes in a row ends within two of them, or has another character behind
them. -/
theorem exists_quotes {quote : Char} {s : List Char} (hs : hasTriple quote s = false) :
    (∃ k ≤ 2, s = List.replicate k quote) ∨
      ∃ k d t, k < 3 ∧ d ≠ quote ∧ s = List.replicate k quote ++ d :: t := by
  match s with
  | [] => exact .inl ⟨0, by omega, rfl⟩
  | [a] =>
    by_cases ha : a = quote
    · exact .inl ⟨1, by omega, by rw [ha]; rfl⟩
    · exact .inr ⟨0, a, [], by omega, ha, rfl⟩
  | [a, b] =>
    by_cases ha : a = quote
    · by_cases hb : b = quote
      · exact .inl ⟨2, by omega, by rw [ha, hb]; rfl⟩
      · exact .inr ⟨1, b, [], by omega, hb, by rw [ha]; rfl⟩
    · exact .inr ⟨0, a, [b], by omega, ha, rfl⟩
  | a :: b :: c :: t =>
    by_cases ha : a = quote
    · by_cases hb : b = quote
      · have hc : c ≠ quote := by
          rintro rfl
          simp [hasTriple, ha, hb] at hs
        exact .inr ⟨2, c, t, by omega, hc, by rw [ha, hb]; rfl⟩
      · exact .inr ⟨1, b, c :: t, by omega, hb, by rw [ha]; rfl⟩
    · exact .inr ⟨0, a, b :: c :: t, by omega, ha, rfl⟩

theorem hasTriple_tail {quote c : Char} {s : List Char} (h : hasTriple quote (c :: s) = false) :
    hasTriple quote s = false := by
  match s with
  | [] => rfl
  | [_] => rfl
  | _ :: _ :: _ =>
    rw [hasTriple, Bool.or_eq_false_iff] at h
    exact h.2

/-! ### Strings over several lines -/

section Lines

variable {rest : List Char}

/-- A string in the basic notation over several lines is read back. At a quote that stands for
itself, the reader looks whether it is one of the last: then it and the quotes behind it end the
string, and else it is read alone. -/
theorem basicLines?_escapeFrom (hrest : ∀ c ∈ rest.head?, c ≠ '"') {fuel run : Nat} (hrun : run ≤ 2)
    (s : List Char) (hfuel : (escapeFrom true 2 run s).length < fuel) :
    basicLines? fuel (escapeFrom true 2 run s ++ '"' :: '"' :: '"' :: rest) = some (s, rest) := by
  induction s generalizing fuel run with
  | nil =>
    obtain ⟨fuel, rfl⟩ := Nat.exists_eq_add_one_of_ne_zero (Nat.ne_zero_of_lt hfuel)
    have hclosing := closing?_replicate (Nat.zero_le 2) hrest
    rw [List.replicate_zero, List.nil_append] at hclosing
    rw [escapeFrom, List.nil_append, basicLines?, if_pos rfl, hclosing]
  | cons c s ih =>
    obtain ⟨fuel, rfl⟩ := Nat.exists_eq_add_one_of_ne_zero (Nat.ne_zero_of_lt hfuel)
    have hcases := escapeFrom_cases hrun (c :: s)
    rw [escapeFrom] at hfuel hcases ⊢
    split_ifs at hfuel hcases ⊢ with hquote hmore
    · subst hquote
      rw [List.length_cons] at hfuel
      have hback : basicLines? fuel (escapeFrom true 2 (run + 1) s ++ '"' :: '"' :: '"' :: rest) =
          some (s, rest) := ih hmore (Nat.lt_of_succ_lt_succ hfuel)
      rw [List.cons_append, basicLines?, if_pos rfl]
      rcases hcases with ⟨k, hk, hs, hwrite⟩ | ⟨k, d, t, hk, hd, hwrite⟩
      · rw [← List.cons_append, hwrite, closing?_replicate (by omega) hrest, hs]
      · have hnone := closing?_eq_none (by omega : k < 3) hd (t ++ '"' :: '"' :: '"' :: rest)
        rw [← List.cons_append, hwrite, List.append_assoc, List.cons_append, hnone]
        simp only [hback, Option.map_some]
    · subst hquote
      simp only [List.length_cons] at hfuel
      rw [List.cons_append, List.cons_append, basicLines?, if_neg (by decide), if_pos rfl]
      simp only [skipBlanks, show isBlank '"' = false from rfl, Bool.false_eq_true,
        not_false_eq_true, List.dropWhile_cons_of_neg,
        newline?_cons (show '"' ≠ '\n' by decide) (by decide), escape?, Option.bind_eq_bind,
        Option.bind_some]
      rw [ih (by omega) (by omega)]
      rfl
    · rw [List.length_append] at hfuel
      rcases escapeChar_cases true hquote with
        ⟨d, escaped, hwrite, hblank, hnewline, hreturn, hescape⟩ |
        ⟨hwrite, hbackslash, hreturn, hplain⟩
      · rw [hwrite, List.length_cons] at hfuel
        rw [hwrite, List.cons_append, List.cons_append, basicLines?, if_neg (by decide),
          if_pos rfl]
        simp only [skipBlanks, hblank, Bool.false_eq_true, not_false_eq_true, List.cons_append,
          List.dropWhile_cons_of_neg, newline?_cons hnewline hreturn]
        rw [List.append_assoc, ← List.cons_append, hescape]
        simp only [Option.bind_eq_bind, Option.bind_some]
        rw [ih (by omega) (by omega)]
        rfl
      · rw [hwrite, List.length_singleton] at hfuel
        rw [hwrite, List.singleton_append, List.cons_append, basicLines?, if_neg hquote,
          if_neg hbackslash]
        by_cases hnewline : c = '\n'
        · subst hnewline
          simp only [newline?]
          rw [ih (by omega) (by omega)]
          rfl
        · have hplain : isPlain c = true := by simpa [hnewline] using hplain
          simp only [newline?_cons hnewline hreturn, hplain, if_true]
          rw [ih (by omega) (by omega)]
          rfl

/-- A string without three quotes in a row is read back from the literal notation over several
lines. -/
theorem literalLines?_append (hrest : ∀ c ∈ rest.head?, c ≠ '\'') {fuel : Nat} {s : List Char}
    (hs : ∀ c ∈ s, isControl c = false) (htriple : hasTriple '\'' s = false)
    (hfuel : s.length < fuel) :
    literalLines? fuel (s ++ '\'' :: '\'' :: '\'' :: rest) = some (s, rest) := by
  induction s generalizing fuel with
  | nil =>
    obtain ⟨fuel, rfl⟩ := Nat.exists_eq_add_one_of_ne_zero (Nat.ne_zero_of_lt hfuel)
    have hclosing := closing?_replicate (Nat.zero_le 2) hrest
    rw [List.replicate_zero, List.nil_append] at hclosing
    rw [List.nil_append, literalLines?, if_pos rfl, hclosing]
  | cons c s ih =>
    obtain ⟨fuel, rfl⟩ := Nat.exists_eq_add_one_of_ne_zero (Nat.ne_zero_of_lt hfuel)
    have hcases := exists_quotes htriple
    obtain ⟨hcontrol, hs⟩ := List.forall_mem_cons.mp hs
    have hback := ih hs (hasTriple_tail htriple) (Nat.lt_of_succ_lt_succ hfuel)
    rw [List.cons_append, literalLines?]
    by_cases hquote : c = '\''
    · rw [if_pos hquote, ← List.cons_append]
      rcases hcases with ⟨k, hk, hwrite⟩ | ⟨k, d, t, hk, hd, hwrite⟩
      · rw [hwrite, closing?_replicate hk hrest]
      · rw [hwrite, List.append_assoc, List.cons_append, closing?_eq_none hk hd]
        simp only [hback, Option.map_some]
        rw [← hwrite, hquote]
    · rw [if_neg hquote]
      by_cases hnewline : c = '\n'
      · subst hnewline
        simp only [newline?, hback, Option.map_some]
      · have hreturn : c ≠ '\r' := by
          rintro rfl
          exact absurd hcontrol (by decide)
        have hplain := isPlain_of_not_isControl hcontrol hnewline
        simp only [newline?_cons hnewline hreturn, hplain, if_true, hback, Option.map_some]

end Lines

/-! ### Strings in the notation chosen for them -/

theorem Style.choose_literal {s : List Char} (h : Style.choose s = .literal) :
    ∀ c ∈ s, c ≠ '\'' ∧ isPlain c = true := by
  intro c hc
  simp only [Style.choose] at h
  split_ifs at h with _ hliteral
  simp only [Bool.and_eq_true, Bool.not_eq_true', List.any_eq_false, List.contains_eq_mem,
    decide_eq_false_iff_not, Bool.not_eq_true] at hliteral
  obtain ⟨⟨hcontrol, hquote⟩, hnewline⟩ := hliteral
  refine ⟨?_, isPlain_of_not_isControl (hcontrol c hc) ?_⟩
  · rintro rfl
    exact hquote hc
  · rintro rfl
    exact hnewline hc

theorem Style.choose_literalLines {s : List Char} (h : Style.choose s = .literalLines) :
    (∀ c ∈ s, isControl c = false) ∧ hasTriple '\'' s = false := by
  simp only [Style.choose] at h
  split_ifs at h with _ _ _ hliteral
  simpa only [Bool.and_eq_true, Bool.not_eq_true', List.any_eq_false, Bool.not_eq_true]
    using hliteral

/-- A text that does not start with three quotes is read as a string on one line. -/
theorem string?_eq_lineString? {fuel : Nat} {c : Char} {s : List Char}
    (h : ∀ t, s ≠ c :: c :: t) : string? fuel (c :: s) = lineString? fuel (c :: s) := by
  rw [string?.eq_def]
  split
  · rename_i t heq
    obtain ⟨rfl, rfl⟩ := List.cons.inj heq
    exact absurd rfl (h t)
  · rename_i t heq
    obtain ⟨rfl, rfl⟩ := List.cons.inj heq
    exact absurd rfl (h t)
  · rfl

/-- A quote that ends a string does not look like the last two of three opening ones. -/
theorem append_ne_quotes {quote : Char} {body rest : List Char}
    (hbody : ∀ c ∈ body.head?, c ≠ quote) (hrest : ∀ c ∈ rest.head?, c ≠ quote) (t : List Char) :
    body ++ quote :: rest ≠ quote :: quote :: t := by
  intro heq
  cases body with
  | nil =>
    rw [List.nil_append, List.cons.injEq] at heq
    exact hrest quote (by rw [heq.2]; rfl) rfl
  | cons c body =>
    rw [List.cons_append, List.cons.injEq] at heq
    exact hbody c rfl heq.1

/-- The end of line that is written after the opening quotes is the only one that is dropped. -/
theorem dropFirstNewline_append {s body rest : List Char} {quote : Char}
    (hquote : quote ≠ '\n' ∧ quote ≠ '\r')
    (hbody : '\n' ∉ s → ∀ c ∈ body.head?, c ≠ '\n' ∧ c ≠ '\r') :
    dropFirstNewline (leadingNewline s ++ (body ++ quote :: rest)) = body ++ quote :: rest := by
  rw [leadingNewline]
  split_ifs with hnewline
  · rfl
  · rw [List.contains_eq_mem, decide_eq_true_eq] at hnewline
    rw [List.nil_append, dropFirstNewline]
    cases body with
    | nil =>
      rw [List.nil_append, newline?_cons hquote.1 hquote.2]
      rfl
    | cons c body =>
      obtain ⟨hfirst, hreturn⟩ := hbody hnewline c rfl
      rw [List.cons_append, newline?_cons hfirst hreturn]
      rfl

/-- What is written for a string in a basic notation starts with neither an end of line, where the
string has none, nor a quote, where none stands for itself. -/
theorem head?_escapeFrom (lines : Bool) (most : Nat) (s : List Char) :
    ∀ c ∈ (escapeFrom lines most 0 s).head?,
      ('\n' ∉ s → c ≠ '\n' ∧ c ≠ '\r') ∧ (most = 0 → c ≠ '"') := by
  cases s with
  | nil => simp [escapeFrom]
  | cons d s =>
    rw [escapeFrom]
    split_ifs with hquote hrun
    · simp [hquote, hrun.ne']
    · simp
    · rcases escapeChar_cases lines hquote with ⟨e, escaped, hwrite, -⟩ | ⟨hwrite, -, hreturn, -⟩
      · simp [hwrite]
      · simp only [hwrite, List.singleton_append, List.head?_cons, Option.mem_def,
          Option.some.injEq, forall_eq']
        refine ⟨fun hnewline ↦ ⟨?_, hreturn⟩, fun _ ↦ hquote⟩
        rintro rfl
        exact hnewline List.mem_cons_self

/-- A string is read back from the notation it is written in. -/
theorem string?_writeString {budget : Nat} (s : String) {rest : List Char} (hrest : Closes rest)
    (hbudget : (writeString s).length < budget) :
    string? budget (writeString s ++ rest) = some (s.toList, rest) := by
  have hbasic : ∀ c ∈ rest.head?, c ≠ '"' := hrest.head?_ne (by decide)
  have hliteral : ∀ c ∈ rest.head?, c ≠ '\'' := hrest.head?_ne (by decide)
  rw [writeString] at hbudget ⊢
  cases hstyle : Style.choose s.toList with
  | basic =>
    simp only [hstyle, writeStyled, List.length_append, List.length_singleton] at hbudget
    simp only [writeStyled, List.append_assoc, List.cons_append, List.nil_append]
    have hfirst := fun c hc ↦ (head?_escapeFrom false 0 s.toList c hc).2 rfl
    rw [string?_eq_lineString? (append_ne_quotes hfirst hbasic)]
    exact basicBody?_escapeFrom 0 s.toList rest (by omega)
  | literal =>
    have hs := Style.choose_literal hstyle
    simp only [writeStyled, List.append_assoc, List.cons_append, List.nil_append]
    have hfirst := fun c hc ↦ (hs c (List.mem_of_mem_head? hc)).1
    rw [string?_eq_lineString? (append_ne_quotes hfirst hliteral)]
    exact literalBody?_append rest hs
  | basicLines =>
    simp only [hstyle, writeStyled, List.length_append, List.length_cons, List.length_nil]
      at hbudget
    have hfirst := fun hnewline c hc ↦ (head?_escapeFrom true 2 s.toList c hc).1 hnewline
    simp only [writeStyled, List.append_assoc, List.cons_append, List.nil_append]
    rw [string?, dropFirstNewline_append (by decide) hfirst]
    exact basicLines?_escapeFrom hbasic (Nat.zero_le 2) s.toList (by omega)
  | literalLines =>
    simp only [hstyle, writeStyled, List.length_append, List.length_cons, List.length_nil]
      at hbudget
    obtain ⟨hcontrol, htriple⟩ := Style.choose_literalLines hstyle
    have hfirst : '\n' ∉ s.toList → ∀ c ∈ s.toList.head?, c ≠ '\n' ∧ c ≠ '\r' := by
      intro hnewline c hc
      have hmem := List.mem_of_mem_head? hc
      refine ⟨?_, ?_⟩
      · rintro rfl
        exact hnewline hmem
      · rintro rfl
        exact absurd (hcontrol _ hmem) (by decide)
    simp only [writeStyled, List.append_assoc, List.cons_append, List.nil_append]
    rw [string?, dropFirstNewline_append (by decide) hfirst]
    exact literalLines?_append hliteral hcontrol htriple (by omega)

end Bindery.Toml
