import Bindery.Proofs.Json.Tree

/-!
# Tokens are read wherever they are laid out

A string literal is read as the characters that its parts write, and fails where they write none
(`textBody_pieces`); its end is found in any case (`skipTextBody_pieces`). A number literal is
scanned as its parts, given that the text behind it `Follows` a value (`Literal.scan_chars`). The
steps between the items of a list and the members of an object reach the next one behind any blanks
(`nextItem_cons`, `nextKey_cons`).
-/

set_option autoImplicit false
set_option relaxedAutoImplicit false

namespace Bindery.Json

/-! ### String literals -/

namespace Piece

theorem hexQuad?_append {a b c d : Char} (h : ∀ digit ∈ [a, b, c, d], (hexValue? digit).isSome)
    (rest : List Char) : hexQuad? (a :: b :: c :: d :: rest) = some (quad a b c d, rest) := by
  have hvalue : ∀ digit ∈ [a, b, c, d], ∃ value, hexValue? digit = some value :=
    fun digit hdigit ↦ Option.isSome_iff_exists.mp (h digit hdigit)
  obtain ⟨va, ha⟩ := hvalue a (by simp)
  obtain ⟨vb, hb⟩ := hvalue b (by simp)
  obtain ⟨vc, hc⟩ := hvalue c (by simp)
  obtain ⟨vd, hd⟩ := hvalue d (by simp)
  simp [hexQuad?, quad, ha, hb, hc, hd]

theorem hexEscape_append {a b c d : Char} (h : ∀ digit ∈ [a, b, c, d], (hexValue? digit).isSome)
    (rest : List Char) : hexEscape (a :: b :: c :: d :: rest) = .ok (quad a b c d, rest) := by
  rw [hexEscape, hexQuad?_append h]

/-- A letter behind a backslash is no `u`. -/
theorem ne_u_of_shortEscape? {c : Char} (h : (shortEscape? c).isSome) : c ≠ 'u' := by
  rintro rfl
  exact absurd h (by decide)

theorem length_chars_pos (piece : Piece) : 0 < piece.chars.length := by
  cases piece <;> simp [chars]

end Piece

/-- The end of a string literal is found, whatever its parts are. -/
theorem skipTextBody_pieces {fuel : Nat} (pieces : List Piece) (rest : List Char)
    (hfuel : (pieces.flatMap Piece.chars).length < fuel) :
    skipTextBody fuel (pieces.flatMap Piece.chars ++ '"' :: rest) = .ok rest := by
  induction pieces generalizing fuel with
  | nil =>
    obtain ⟨fuel, rfl⟩ := Nat.exists_eq_add_one_of_ne_zero (Nat.ne_zero_of_lt hfuel)
    rfl
  | cons piece pieces ih =>
    obtain ⟨fuel, rfl⟩ := Nat.exists_eq_add_one_of_ne_zero (Nat.ne_zero_of_lt hfuel)
    have hpos := piece.length_chars_pos
    rw [List.flatMap_cons, List.length_append] at hfuel
    have htail := @ih fuel (by omega)
    rw [List.flatMap_cons, List.append_assoc]
    cases piece with
    | plain c h =>
      rw [Piece.chars, List.singleton_append, skipTextBody, if_neg h.1, if_neg h.2.1,
        if_neg h.2.2, htail]
    | short c h =>
      obtain ⟨character, hcharacter⟩ := Option.isSome_iff_exists.mp h
      have hescape : skipEscape (c :: (pieces.flatMap Piece.chars ++ '"' :: rest)) =
          .ok (pieces.flatMap Piece.chars ++ '"' :: rest) := by
        rw [skipEscape, if_neg (Piece.ne_u_of_shortEscape? h), hcharacter]
      rw [Piece.chars, List.cons_append, List.singleton_append, skipTextBody, if_neg (by decide),
        if_pos rfl, hescape]
      exact htail
    | unit a b c d h =>
      have hescape : skipEscape
          ('u' :: a :: b :: c :: d :: (pieces.flatMap Piece.chars ++ '"' :: rest)) =
            .ok (pieces.flatMap Piece.chars ++ '"' :: rest) := by
        rw [skipEscape, if_pos rfl, Piece.hexEscape_append h]
        rfl
      rw [Piece.chars, List.cons_append, skipTextBody, if_neg (by decide), if_pos rfl]
      simp only [List.cons_append, List.nil_append, hescape]
      exact htail

/-! ### Code units -/

section Units

variable {a b c d : Char} (h : ∀ digit ∈ [a, b, c, d], (hexValue? digit).isSome)

include h

theorem unicodeEscape_single (hlow : isLowSurrogate (quad a b c d) = false)
    (hhigh : isHighSurrogate (quad a b c d) = false) (rest : List Char) :
    unicodeEscape (a :: b :: c :: d :: rest) = .ok (Char.ofNat (quad a b c d), rest) := by
  unfold unicodeEscape
  rw [Piece.hexEscape_append h]
  simp only [bind, Except.bind, hlow, hhigh]
  rfl

theorem unicodeEscape_low (hlow : isLowSurrogate (quad a b c d) = true) (rest : List Char) :
    ∃ fault, unicodeEscape (a :: b :: c :: d :: rest) = .error fault := by
  unfold unicodeEscape
  rw [Piece.hexEscape_append h]
  simp only [bind, Except.bind, hlow]
  exact ⟨_, rfl⟩

/-- The second half of a character is read with the first, if it is there. -/
theorem unicodeEscape_high (hlow : isLowSurrogate (quad a b c d) = false)
    (hhigh : isHighSurrogate (quad a b c d) = true) (rest : List Char) :
    unicodeEscape (a :: b :: c :: d :: rest) = do
      let s ← pairMark '\\' rest
      let s ← pairMark 'u' s
      let (second, s) ← hexEscape s
      if !isLowSurrogate second then throw (.before .loneSurrogate s)
      return (joined (quad a b c d) second, s) := by
  conv_lhs => unfold unicodeEscape
  rw [Piece.hexEscape_append h]
  simp only [bind, Except.bind, hlow, hhigh]
  rfl

/-- Both halves of a character are read as one. -/
theorem unicodeEscape_pair {e f g k : Char} (hlow : isLowSurrogate (quad a b c d) = false)
    (hhigh : isHighSurrogate (quad a b c d) = true)
    (hsecond : ∀ digit ∈ [e, f, g, k], (hexValue? digit).isSome)
    (hpair : isLowSurrogate (quad e f g k) = true) (rest : List Char) :
    unicodeEscape (a :: b :: c :: d :: '\\' :: 'u' :: e :: f :: g :: k :: rest) =
      .ok (joined (quad a b c d) (quad e f g k), rest) := by
  rw [unicodeEscape_high h hlow hhigh]
  simp only [pairMark, if_true, bind, Except.bind, Piece.hexEscape_append hsecond, hpair]
  rfl

/-- A first half of a character needs the second right behind it. -/
theorem unicodeEscape_unpaired (hlow : isLowSurrogate (quad a b c d) = false)
    (hhigh : isHighSurrogate (quad a b c d) = true) (pieces : List Piece) (rest : List Char)
    (hpieces : ∀ e f g k hsecond others, pieces = .unit e f g k hsecond :: others →
      isLowSurrogate (quad e f g k) = false) :
    ∃ fault, unicodeEscape (a :: b :: c :: d :: (pieces.flatMap Piece.chars ++ '"' :: rest)) =
      .error fault := by
  rw [unicodeEscape_high h hlow hhigh]
  match pieces with
  | [] => exact ⟨_, rfl⟩
  | .plain c hplain :: pieces =>
    rw [List.flatMap_cons, Piece.chars, List.append_assoc, List.singleton_append, pairMark,
      if_neg hplain.2.1]
    exact ⟨_, rfl⟩
  | .short c hshort :: pieces =>
    have hmark : ∀ s, ∃ fault, pairMark 'u' (c :: s) = .error fault := fun s ↦
      ⟨_, by rw [pairMark, if_neg (Piece.ne_u_of_shortEscape? hshort)]⟩
    obtain ⟨fault, hfault⟩ := hmark (pieces.flatMap Piece.chars ++ '"' :: rest)
    refine ⟨fault, ?_⟩
    rw [List.flatMap_cons, Piece.chars, List.append_assoc, List.cons_append,
      List.singleton_append, pairMark, if_pos rfl]
    simp only [bind, Except.bind, hfault]
  | .unit e f g k hsecond :: pieces =>
    have hpair := hpieces e f g k hsecond pieces rfl
    simp only [List.flatMap_cons, Piece.chars, List.cons_append, List.nil_append, pairMark,
      if_true, bind, Except.bind, Piece.hexEscape_append hsecond, hpair]
    exact ⟨_, rfl⟩

end Units

theorem textBody_plain {fuel : Nat} (done : List Char) {c : Char}
    (h : c ≠ '"' ∧ c ≠ '\\' ∧ ¬c.toNat < 0x20) (s : List Char) :
    textBody (fuel + 1) done (c :: s) = textBody fuel (c :: done) s := by
  rw [textBody, if_neg h.1, if_neg h.2.1, if_neg h.2.2]

theorem textBody_escape {fuel : Nat} (done s : List Char) :
    textBody (fuel + 1) done ('\\' :: s) =
      Except.bind (escape s) fun (character, s) ↦ textBody fuel (character :: done) s := by
  rw [textBody, if_neg (by decide), if_pos rfl]
  cases escape s <;> rfl

theorem textBody_unit {fuel : Nat} (done : List Char) {a b c d : Char}
    (h : ∀ digit ∈ [a, b, c, d], (hexValue? digit).isSome) (s : List Char) :
    textBody (fuel + 1) done ((Piece.unit a b c d h).chars ++ s) =
      Except.bind (unicodeEscape (a :: b :: c :: d :: s)) fun (character, s) ↦
        textBody fuel (character :: done) s := by
  rw [Piece.chars, List.cons_append, textBody_escape]
  simp only [List.cons_append, List.nil_append, escape, if_true]

/-- A string literal is read as the characters that its parts write, if they write any. -/
theorem textBody_pieces {fuel : Nat} (done : List Char) (pieces : List Piece) (rest : List Char)
    (hfuel : (pieces.flatMap Piece.chars).length < fuel) :
    (textBody fuel done (pieces.flatMap Piece.chars ++ '"' :: rest)).toOption =
      (decode? pieces).map fun characters ↦ (done.reverse ++ characters, rest) := by
  induction pieces using decode?.induct generalizing fuel done with
  | case1 =>
    obtain ⟨fuel, rfl⟩ := Nat.exists_eq_add_one_of_ne_zero (Nat.ne_zero_of_lt hfuel)
    simp [textBody, decode?, Except.toOption]
  | case2 c h pieces ih =>
    obtain ⟨fuel, rfl⟩ := Nat.exists_eq_add_one_of_ne_zero (Nat.ne_zero_of_lt hfuel)
    rw [List.flatMap_cons, Piece.chars, List.length_append, List.length_singleton] at hfuel
    rw [List.flatMap_cons, Piece.chars, List.append_assoc, List.singleton_append,
      textBody_plain done h, ih (c :: done) (by omega), decode?, Option.map_map]
    simp [Function.comp_def]
  | case3 c h pieces ih =>
    obtain ⟨fuel, rfl⟩ := Nat.exists_eq_add_one_of_ne_zero (Nat.ne_zero_of_lt hfuel)
    rw [List.flatMap_cons, Piece.chars, List.length_append] at hfuel
    simp only [List.length_cons] at hfuel
    have hescape : escape (c :: (pieces.flatMap Piece.chars ++ '"' :: rest)) =
        .ok ((shortEscape? c).get h, pieces.flatMap Piece.chars ++ '"' :: rest) := by
      obtain ⟨character, hcharacter⟩ := Option.isSome_iff_exists.mp h
      rw [escape, if_neg (Piece.ne_u_of_shortEscape? h)]
      simp [hcharacter]
    rw [List.flatMap_cons, Piece.chars, List.append_assoc, List.cons_append, List.singleton_append,
      textBody_escape, hescape]
    change (textBody fuel _ _).toOption = _
    rw [ih _ (by omega), decode?, Option.map_map]
    simp [Function.comp_def]
  | case4 a b c d h pieces hlow =>
    obtain ⟨fuel, rfl⟩ := Nat.exists_eq_add_one_of_ne_zero (Nat.ne_zero_of_lt hfuel)
    obtain ⟨fault, hfault⟩ := unicodeEscape_low h hlow (pieces.flatMap Piece.chars ++ '"' :: rest)
    rw [List.flatMap_cons, List.append_assoc, textBody_unit, hfault, decode?.eq_def]
    simp only [hlow, if_true]
    rfl
  | case5 a b c d h hlow hhigh e f g k h' pieces hsecond ih =>
    obtain ⟨fuel, rfl⟩ := Nat.exists_eq_add_one_of_ne_zero (Nat.ne_zero_of_lt hfuel)
    rw [Bool.not_eq_true] at hlow
    simp only [List.flatMap_cons, Piece.chars, List.length_append, List.length_cons] at hfuel
    have hpair := unicodeEscape_pair h hlow hhigh h' hsecond
      (pieces.flatMap Piece.chars ++ '"' :: rest)
    rw [List.flatMap_cons, List.flatMap_cons, List.append_assoc, textBody_unit]
    simp only [Piece.chars, List.cons_append, List.nil_append, hpair]
    change (textBody fuel _ _).toOption = _
    rw [ih _ (by omega)]
    simp [decode?, hlow, hhigh, hsecond, Function.comp_def]
  | case6 a b c d h hlow hhigh e f g k h' pieces hsecond =>
    obtain ⟨fuel, rfl⟩ := Nat.exists_eq_add_one_of_ne_zero (Nat.ne_zero_of_lt hfuel)
    rw [Bool.not_eq_true] at hlow hsecond
    obtain ⟨fault, hfault⟩ := unicodeEscape_unpaired h hlow hhigh (.unit e f g k h' :: pieces) rest
      fun _ _ _ _ _ _ heq ↦ by
        obtain ⟨⟨rfl, rfl, rfl, rfl⟩, rfl⟩ := by simpa using heq
        exact hsecond
    rw [List.flatMap_cons, List.append_assoc, textBody_unit, hfault]
    simp only [decode?, hlow, hhigh, hsecond, if_true, Bool.false_eq_true, if_false]
    rfl
  | case7 a b c d h pieces hlow hhigh hother =>
    obtain ⟨fuel, rfl⟩ := Nat.exists_eq_add_one_of_ne_zero (Nat.ne_zero_of_lt hfuel)
    rw [Bool.not_eq_true] at hlow
    obtain ⟨fault, hfault⟩ := unicodeEscape_unpaired h hlow hhigh pieces rest
      fun _ _ _ _ _ _ heq ↦ (hother _ _ _ _ _ _ heq).elim
    have hdecode : decode? (.unit a b c d h :: pieces) = none := by
      rw [decode?.eq_def]
      simp only [hlow, hhigh, Bool.false_eq_true, if_false, if_true]
    rw [List.flatMap_cons, List.append_assoc, textBody_unit, hfault, hdecode]
    rfl
  | case8 a b c d h pieces hlow hhigh ih =>
    obtain ⟨fuel, rfl⟩ := Nat.exists_eq_add_one_of_ne_zero (Nat.ne_zero_of_lt hfuel)
    rw [Bool.not_eq_true] at hlow hhigh
    simp only [List.flatMap_cons, Piece.chars, List.length_append, List.length_cons] at hfuel
    have hsingle := unicodeEscape_single h hlow hhigh (pieces.flatMap Piece.chars ++ '"' :: rest)
    have hdecode : decode? (.unit a b c d h :: pieces) =
        (decode? pieces).map (Char.ofNat (quad a b c d) :: ·) := by
      rw [decode?.eq_def]
      simp only [hlow, hhigh, Bool.false_eq_true, if_false]
    rw [List.flatMap_cons, List.append_assoc, textBody_unit, hsingle]
    change (textBody fuel _ _).toOption = _
    rw [ih _ (by omega), hdecode]
    simp [Function.comp_def]

/-! ### Number literals -/

/-- A text that can follow a value: it is empty, or goes on with a blank, a comma or a closing
bracket. -/
def Follows (s : List Char) : Prop :=
  ∀ c ∈ s.head?, isSpace c = true ∨ c = ',' ∨ c = ']' ∨ c = '\x7d'

/-- What follows a value does not go on with a number. -/
theorem Follows.ne {rest : List Char} (h : Follows rest) :
    ∀ c ∈ rest.head?, c.isDigit = false ∧ c ≠ '.' ∧ c ≠ 'e' ∧ c ≠ 'E' := by
  intro c hc
  rcases h c hc with hspace | rfl | rfl | rfl
  · simp only [isSpace, Bool.or_eq_true, decide_eq_true_eq] at hspace
    rcases hspace with ((rfl | rfl) | rfl) | rfl <;> decide
  all_goals decide

namespace Literal

variable {rest : List Char} (atEnd : Reason)

theorem scanWhole_append {whole : List Char}
    (hwhole : IsDigits whole ∧ (whole.head? = some '0' → whole = ['0']))
    (hrest : ∀ c ∈ rest.head?, c.isDigit = false) :
    scanWhole atEnd (whole ++ rest) = .ok (whole, rest) := by
  obtain ⟨⟨hne, hdigits⟩, hzero⟩ := hwhole
  obtain ⟨d, digits, rfl⟩ := List.exists_cons_of_ne_nil hne
  by_cases hd : d = '0'
  · obtain rfl : digits = [] := by simpa [hd] using hzero (by rw [hd]; rfl)
    subst hd
    cases rest with
    | nil => rfl
    | cons c rest =>
      have hc := hrest c rfl
      simp [scanWhole, hc]
  · obtain ⟨hfirst, hothers⟩ := List.forall_mem_cons.mp hdigits
    obtain ⟨htake, hdrop⟩ := takeWhile_isDigit_append hothers hrest
    rw [List.cons_append, scanWhole.eq_def]
    simp only [hd, hfirst, htake, hdrop, if_false, if_true]

theorem scanFraction_append {fraction : Option (List Char)}
    (hfraction : ∀ digits ∈ fraction, IsDigits digits)
    (hrest : ∀ c ∈ rest.head?, c.isDigit = false ∧ c ≠ '.') :
    scanFraction atEnd (Numeral.fractionChars fraction ++ rest) = .ok (fraction, rest) := by
  cases fraction with
  | none =>
    cases rest with
    | nil => rfl
    | cons c rest => simp [Numeral.fractionChars, scanFraction, (hrest c rfl).2]
  | some digits =>
    obtain ⟨hne, hdigits⟩ := hfraction digits rfl
    have hstop : ∀ c ∈ rest.head?, c.isDigit = false := fun c hc ↦ (hrest c hc).1
    obtain ⟨htake, hdrop⟩ := takeWhile_isDigit_append hdigits hstop
    obtain ⟨d, digits, rfl⟩ := List.exists_cons_of_ne_nil hne
    have hd := hdigits d List.mem_cons_self
    rw [Numeral.fractionChars, List.cons_append, scanFraction.eq_def]
    rw [List.cons_append] at htake hdrop ⊢
    simp only [hd, if_true, htake, hdrop]

theorem scanExponent_append {exponent : Option (Char × List Char × List Char)}
    (hexponent : ∀ letter sign digits, exponent = some (letter, sign, digits) →
      (letter = 'e' ∨ letter = 'E') ∧ (sign = [] ∨ sign = ['+'] ∨ sign = ['-']) ∧ IsDigits digits)
    (hrest : ∀ c ∈ rest.head?, c.isDigit = false ∧ c ≠ 'e' ∧ c ≠ 'E') :
    scanExponent atEnd (Numeral.exponentChars exponent ++ rest) =
      .ok (exponent.map fun (_, sign, digits) ↦ (decide (sign = ['-']), digits), rest) := by
  cases exponent with
  | none =>
    cases rest with
    | nil => rfl
    | cons c rest => simp [Numeral.exponentChars, scanExponent, (hrest c rfl).2]
  | some parts =>
    obtain ⟨letter, sign, digits⟩ := parts
    obtain ⟨hletter, hsign, hne, hdigits⟩ := hexponent letter sign digits rfl
    have hstop : ∀ c ∈ rest.head?, c.isDigit = false := fun c hc ↦ (hrest c hc).1
    obtain ⟨d, digits, rfl⟩ := List.exists_cons_of_ne_nil hne
    obtain ⟨hd, hothers⟩ := List.forall_mem_cons.mp hdigits
    obtain ⟨htake, hdrop⟩ := takeWhile_isDigit_append hothers hstop
    have hpower : scanPower atEnd (d :: (digits ++ rest)) = .ok (d :: digits, rest) := by
      rw [scanPower, if_pos hd, htake, hdrop]
    have hplus : d ≠ '+' := by
      rintro rfl
      exact absurd hd (by decide)
    have hminus : d ≠ '-' := by
      rintro rfl
      exact absurd hd (by decide)
    rw [Numeral.exponentChars, List.cons_append, scanExponent.eq_def, List.append_assoc]
    simp only [hletter, if_true]
    rcases hsign with rfl | rfl | rfl
    · have hnone : decide (([] : List Char) = ['-']) = false := by decide
      simp only [List.cons_append, List.nil_append]
      split
      · rename_i hs
        exact absurd (List.cons.inj hs).1 hplus
      · rename_i hs
        exact absurd (List.cons.inj hs).1 hminus
      · rw [hpower, Option.map_some, hnone]
        rfl
    · simp only [List.cons_append, List.nil_append, hpower]
      rfl
    · simp only [List.cons_append, List.nil_append, hpower]
      rfl

/-- Behind the whole digits of a numeral and its fraction stands no digit and no point. -/
theorem head?_exponentChars (numeral : Numeral) (hrest : Follows rest) :
    ∀ c ∈ (Numeral.exponentChars numeral.exponent ++ rest).head?, c.isDigit = false ∧ c ≠ '.' := by
  intro c hc
  cases hparts : numeral.exponent with
  | none =>
    rw [hparts] at hc
    exact ⟨(hrest.ne c hc).1, (hrest.ne c hc).2.1⟩
  | some parts =>
    obtain ⟨letter, sign, digits⟩ := parts
    obtain ⟨hletter, -⟩ := numeral.exponent_digits letter sign digits hparts
    rw [hparts, Numeral.exponentChars, List.cons_append, List.head?_cons,
      Option.mem_some_iff] at hc
    subst hc
    rcases hletter with rfl | rfl <;> decide

/-- Behind the whole digits of a numeral stands no digit. -/
theorem head?_fractionChars (numeral : Numeral) (hrest : Follows rest) :
    ∀ c ∈ (Numeral.fractionChars numeral.fraction ++
      (Numeral.exponentChars numeral.exponent ++ rest)).head?, c.isDigit = false := by
  intro c hc
  cases hdigits : numeral.fraction with
  | none =>
    rw [hdigits] at hc
    exact (head?_exponentChars numeral hrest c hc).1
  | some digits =>
    rw [hdigits, Numeral.fractionChars, List.cons_append, List.head?_cons,
      Option.mem_some_iff] at hc
    subst hc
    decide

/-- A numeral is scanned as its parts, where the text behind it does not go on with a number. -/
theorem scan_chars (numeral : Numeral) (hrest : Follows rest) :
    scan atEnd (numeral.chars ++ rest) = .ok (numeral.literal, rest) := by
  have hstop : ∀ c ∈ rest.head?, c.isDigit = false ∧ c ≠ 'e' ∧ c ≠ 'E' :=
    fun c hc ↦ ⟨(hrest.ne c hc).1, (hrest.ne c hc).2.2⟩
  have hexponent := scanExponent_append atEnd numeral.exponent_digits hstop
  have hfraction := scanFraction_append atEnd numeral.fraction_digits
    (head?_exponentChars numeral hrest)
  have hwhole := scanWhole_append atEnd numeral.whole_digits (head?_fractionChars numeral hrest)
  have hchars : numeral.chars ++ rest = (if numeral.negative then ['-'] else []) ++
      (numeral.whole ++ (Numeral.fractionChars numeral.fraction ++
        (Numeral.exponentChars numeral.exponent ++ rest))) := by
    simp [Numeral.chars]
  rw [hchars, Numeral.literal]
  cases numeral.negative with
  | true =>
    rw [scan.eq_def]
    simp only [if_true, List.cons_append, List.nil_append, hwhole, bind, Except.bind, hfraction,
      hexponent]
    rfl
  | false =>
    -- The first digit is no minus, so the digits start at once.
    obtain ⟨d, digits, hdigits⟩ := List.exists_cons_of_ne_nil numeral.whole_digits.1.1
    have hminus : d ≠ '-' := by
      rintro rfl
      exact absurd (numeral.whole_digits.1.2 '-' (by simp [hdigits])) (by decide)
    rw [hdigits] at hwhole ⊢
    simp only [Bool.false_eq_true, if_false, List.nil_append, List.cons_append] at hwhole ⊢
    rw [scan.eq_def]
    split
    rename_i negative s hsign
    split at hsign
    · rename_i after hs
      exact absurd (List.cons.inj hs).1 hminus
    · obtain ⟨rfl, rfl⟩ := Prod.mk.inj hsign
      simp only [hwhole, bind, Except.bind, hfraction, hexponent]
      rfl

end Literal

/-! ### Lists and objects -/

section Layout

variable {first : Bool} {s rest : List Char} {tokens : List (List Char)}

theorem Spaced.follows {c : Char} {token : List Char} (h : Spaced ((c :: token) :: tokens) s rest)
    (hc : c = ',' ∨ c = ']' ∨ c = '\x7d') : Follows s := by
  obtain ⟨blanks, after, hblanks, rfl, -⟩ := h
  intro d hd
  cases blanks with
  | nil =>
    obtain rfl : c = d := by simpa using hd
    exact .inr hc
  | cons blank blanks =>
    obtain rfl : blank = d := by simpa using hd
    exact .inl (hblanks blank List.mem_cons_self)

theorem follows_of_itemTokens {items : List Tree} (h : Spaced (itemTokens false items) s rest) :
    Follows s := by
  cases items with
  | nil =>
    rw [itemTokens] at h
    exact h.follows (by simp)
  | cons item items =>
    rw [itemTokens] at h
    exact h.follows (.inl rfl)

theorem follows_of_memberTokens {members : List (List Piece × Tree)}
    (h : Spaced (memberTokens false members) s rest) : Follows s := by
  cases members with
  | nil =>
    rw [memberTokens] at h
    exact h.follows (by simp)
  | cons member members =>
    rw [memberTokens] at h
    exact h.follows (.inl rfl)

theorem colon_of_spaced (h : Spaced ([':'] :: tokens) s rest) :
    ∃ after, colon s = .ok after ∧ Spaced tokens after rest ∧ after.length < s.length := by
  obtain ⟨after, hskip, hafter, hlength⟩ := h.skipSpaces_eq (by decide)
  refine ⟨after, ?_, hafter, by omega⟩
  rw [colon, hskip]
  rfl

theorem nextItem_nil (h : Spaced (itemTokens first []) s rest) :
    nextItem first s = .ok (false, ']' :: rest) := by
  rw [itemTokens] at h
  obtain ⟨after, hskip, rfl, -⟩ := h.skipSpaces_eq (by decide)
  rw [nextItem, hskip]
  rfl

/-- The next item is reached behind the comma that is in front of all but the first. -/
theorem nextItem_cons {item : Tree} {items : List Tree}
    (h : Spaced (itemTokens first (item :: items)) s rest) :
    ∃ after, nextItem first s = .ok (true, after) ∧
      Spaced (item.tokens ++ itemTokens false items) after rest ∧ after.length ≤ s.length := by
  obtain ⟨c, token, tokens, htokens, hstarts⟩ := item.exists_tokens
  obtain ⟨hspace, hbracket⟩ := hstarts.ne
  rw [itemTokens, htokens] at h
  rw [htokens]
  cases first with
  | true =>
    obtain ⟨after, hskip, hafter, hlength⟩ := h.skipSpaces_eq hspace
    refine ⟨c :: (token ++ after), ?_, spaced_cons hafter, ?_⟩
    · rw [nextItem, hskip]
      simp only [hbracket, if_false, if_true]
    · simp only [List.length_cons, List.length_append]
      omega
  | false =>
    obtain ⟨behind, hcomma, hbehind, hshort⟩ := Spaced.skipSpaces_eq h (by decide)
    obtain ⟨after, hskip, hafter, hlength⟩ := Spaced.skipSpaces_eq hbehind hspace
    refine ⟨c :: (token ++ after), ?_, spaced_cons hafter, ?_⟩
    · rw [nextItem, hcomma]
      simp [hskip, hbracket]
    · simp only [List.length_cons, List.length_append]
      omega

theorem listEnd_nil (h : Spaced (itemTokens first []) s rest) : listEnd s = .ok rest := by
  rw [itemTokens] at h
  obtain ⟨after, hskip, rfl, -⟩ := h.skipSpaces_eq (by decide)
  rw [listEnd, hskip]
  rfl

/-- A list does not end where another item follows. -/
theorem listEnd_cons {item : Tree} {items : List Tree}
    (h : Spaced (itemTokens first (item :: items)) s rest) :
    ∃ fault, listEnd s = .error fault := by
  obtain ⟨c, token, tokens, htokens, hstarts⟩ := item.exists_tokens
  obtain ⟨hspace, hbracket⟩ := hstarts.ne
  rw [itemTokens, htokens] at h
  obtain ⟨d, after, hskip, hd⟩ : ∃ d after, skipSpaces s = d :: after ∧ d ≠ ']' := by
    cases first with
    | true =>
      obtain ⟨after, hskip, -⟩ := Spaced.skipSpaces_eq h hspace
      exact ⟨c, _, hskip, hbracket⟩
    | false =>
      obtain ⟨after, hskip, -⟩ := Spaced.skipSpaces_eq h (by decide)
      exact ⟨',', _, hskip, by decide⟩
  rw [listEnd, hskip]
  simp only [hd, if_false]
  split_ifs
  · split <;> exact ⟨_, rfl⟩
  · exact ⟨_, rfl⟩

theorem nextKey_nil (h : Spaced (memberTokens first []) s rest) :
    nextKey first s = .ok (false, rest) := by
  rw [memberTokens] at h
  obtain ⟨after, hskip, rfl, -⟩ := h.skipSpaces_eq (by decide)
  rw [nextKey, hskip]
  rfl

/-- The key of the next member is reached behind the comma that is in front of all but the first. -/
theorem nextKey_cons {key : List Piece} {value : Tree} {members : List (List Piece × Tree)}
    (h : Spaced (memberTokens first ((key, value) :: members)) s rest) :
    ∃ after, nextKey first s = .ok (true, key.flatMap Piece.chars ++ '"' :: after) ∧
      Spaced ([':'] :: (value.tokens ++ memberTokens false members)) after rest ∧
      (key.flatMap Piece.chars).length + after.length < s.length := by
  rw [memberTokens, textToken] at h
  cases first with
  | true =>
    obtain ⟨after, hskip, hafter, hlength⟩ := Spaced.skipSpaces_eq h (by decide)
    simp only [List.length_append, List.length_singleton] at hlength
    refine ⟨after, ?_, hafter, by omega⟩
    rw [nextKey, hskip, List.append_assoc]
    rfl
  | false =>
    obtain ⟨behind, hcomma, hbehind, hshort⟩ := Spaced.skipSpaces_eq h (by decide)
    obtain ⟨after, hskip, hafter, hlength⟩ := Spaced.skipSpaces_eq hbehind (by decide)
    simp only [List.length_append, List.length_singleton] at hlength
    refine ⟨after, ?_, hafter, by omega⟩
    rw [List.append_assoc] at hskip
    rw [nextKey, hcomma]
    simp [hskip]

end Layout

end Bindery.Json
