import Mathlib.Tactic.SplitIfs
import ShardCut.Proofs.Json.Number

/-!
Which texts are read as strings. Every way to write a character is read as this character, and what
is read as a string is written in these ways, one character after the other. What stands behind the
closing quote is left. A quoted text is one of the ways to write it.

Main results: `readEscape_append`, `readString_append`, `exists_spelled_of_readString`,
`spelled_escaped`.
-/

namespace ShardCut

namespace Json

open Text

variable {c : Char} {s rest form digits : List Char} {fuel u : Nat} {read cs : List Char}

/-! ### Hexadecimal digits -/

theorem ofDigits_hex (p q r s : Nat) :
    ofDigits 16 [p, q, r, s] = ((p * 16 + q) * 16 + r) * 16 + s := by
  simp only [ofDigits, List.foldl_cons, List.foldl_nil]
  omega

/-- Four hexadecimal digits are read as the number that they write. -/
theorem readHex_append (h : Hex4 u digits) (rest : List Char) :
    readHex (digits ++ rest) = .ok (u, rest) := by
  cases h with
  | @digits a b c d p q r s first second third fourth =>
    have values : [a, b, c, d].mapM (digit? 16) = some [p, q, r, s] := by
      simp only [List.mapM_cons, List.mapM_nil, first, second, third, fourth]
      rfl
    simp only [readHex, List.cons_append, List.nil_append, List.take_succ_cons, List.take_zero,
      List.drop_succ_cons, List.drop_zero, values, ofDigits_hex]

theorem exists_hex4_of_readHex (h : readHex s = .ok (u, rest)) :
    ∃ digits, s = digits ++ rest ∧ Hex4 u digits := by
  unfold readHex at h
  split at h
  · next p q r t values =>
    cases h
    -- Four values come from four characters.
    rcases s with _ | ⟨a, _ | ⟨b, _ | ⟨c, _ | ⟨d, s⟩⟩⟩⟩
    all_goals simp [List.mapM_cons, Option.bind_eq_some_iff] at values
    obtain ⟨first, second, third, fourth⟩ := values
    rw [ofDigits_hex]
    exact ⟨[a, b, c, d], rfl, .digits first second third fourth⟩
  · split at h <;> cases h

/-! ### Escapes -/

/-- The letters that stand for characters behind a backslash are those of the table. -/
theorem letterEscape?_eq_some_iff {letter : Char} :
    letterEscape? letter = some c ↔ (letter, c) ∈ letterEscapes := by
  unfold letterEscape?
  constructor
  · intro h
    split_ifs at h with itself
    · obtain rfl := Option.some.inj h
      rcases itself with rfl | rfl | rfl <;> decide
    all_goals
      subst letter
      obtain rfl := Option.some.inj h
      decide
  · intro h
    simp only [letterEscapes, List.mem_cons, Prod.mk.injEq, List.not_mem_nil, or_false] at h
    rcases h with h | h | h | h | h | h | h | h
    all_goals
      obtain ⟨rfl, rfl⟩ := h
      rfl

theorem ne_u_of_mem_letterEscapes {letter : Char} (h : (letter, c) ∈ letterEscapes) :
    letter ≠ 'u' := by
  rintro rfl
  simp [letterEscapes] at h

theorem isLowSurrogate_iff : isLowSurrogate u = true ↔ 0xDC00 ≤ u ∧ u ≤ 0xDFFF := by
  simp [isLowSurrogate]

theorem isHighSurrogate_iff : isHighSurrogate u = true ↔ 0xD800 ≤ u ∧ u ≤ 0xDBFF := by
  simp [isHighSurrogate]

/-- The second half of a pair of escapes completes the character. -/
theorem readLowSurrogate_append {high low : Nat} (hex : Hex4 low digits)
    (isLow : 0xDC00 ≤ low ∧ low ≤ 0xDFFF) (rest : List Char) :
    readLowSurrogate high ('\\' :: 'u' :: (digits ++ rest)) =
      .ok (ofSurrogates high low, rest) := by
  rw [readLowSurrogate, readHex_append hex, ok_bind]
  exact if_pos (isLowSurrogate_iff.mpr isLow)

theorem exists_hex4_of_readLowSurrogate {high : Nat}
    (h : readLowSurrogate high s = .ok (c, rest)) :
    ∃ low digits, s = '\\' :: 'u' :: (digits ++ rest) ∧ Hex4 low digits ∧
      (0xDC00 ≤ low ∧ low ≤ 0xDFFF) ∧ c = ofSurrogates high low := by
  unfold readLowSurrogate at h
  split at h
  · cases h
  · cases h
  · obtain ⟨⟨low, left⟩, read, paired⟩ := bind_eq_ok h
    obtain ⟨digits, rfl, hex⟩ := exists_hex4_of_readHex read
    by_cases isLow : isLowSurrogate low = true
    · simp only [if_pos isLow, Except.ok.injEq, Prod.mk.injEq] at paired
      obtain ⟨same, rfl⟩ := paired
      exact ⟨low, digits, rfl, hex, isLowSurrogate_iff.mp isLow, same.symm⟩
    · simp only [if_neg isLow] at paired
      cases paired
  · cases h

/-- An escape is read from behind its backslash. -/
theorem readEscape_append (h : Spells c ('\\' :: form)) (rest : List Char) :
    readEscape (form ++ rest) = .ok (c, rest) := by
  cases h with
  | itself _ backslash _ => exact (backslash rfl).elim
  | letter escapes =>
    change readEscape (_ :: rest) = _
    rw [readEscape, if_neg (ne_u_of_mem_letterEscapes escapes),
      letterEscape?_eq_some_iff.mpr escapes]
  | @unit u digits hex single =>
    have low : ¬isLowSurrogate u = true := by
      rw [isLowSurrogate_iff]
      omega
    have high : ¬isHighSurrogate u = true := by
      rw [isHighSurrogate_iff]
      omega
    rw [List.cons_append, readEscape, if_pos rfl, readUnicodeEscape, readHex_append hex, ok_bind]
    simp only [if_neg low, if_neg high]
  | @pair high low digits digits' hex hex' isHigh isLow =>
    have other : ¬isLowSurrogate high = true := by
      rw [isLowSurrogate_iff]
      omega
    rw [List.cons_append, List.append_assoc, readEscape, if_pos rfl, readUnicodeEscape,
      readHex_append hex, ok_bind]
    simp only [if_neg other, if_pos (isHighSurrogate_iff.mpr isHigh)]
    exact readLowSurrogate_append hex' isLow rest

/-- What is read behind a backslash spells a character. -/
theorem exists_spells_of_readEscape (h : readEscape s = .ok (c, rest)) :
    ∃ form, s = form ++ rest ∧ Spells c ('\\' :: form) := by
  cases s with
  | nil => cases h
  | cons letter s =>
    rw [readEscape] at h
    by_cases numbered : letter = 'u'
    · subst numbered
      rw [if_pos rfl] at h
      obtain ⟨⟨u, left⟩, read, decoded⟩ := bind_eq_ok h
      obtain ⟨digits, rfl, hex⟩ := exists_hex4_of_readHex read
      by_cases isLow : isLowSurrogate u = true
      · simp only [if_pos isLow] at decoded
        cases decoded
      simp only [if_neg isLow] at decoded
      by_cases isHigh : isHighSurrogate u = true
      · simp only [if_pos isHigh] at decoded
        obtain ⟨low, digits', rfl, hex', range, same⟩ := exists_hex4_of_readLowSurrogate decoded
        refine ⟨'u' :: (digits ++ '\\' :: 'u' :: digits'), ?_, ?_⟩
        · simp
        · rw [same]
          exact .pair hex hex' (isHighSurrogate_iff.mp isHigh) range
      · simp only [if_neg isHigh] at decoded
        cases decoded
        rw [isLowSurrogate_iff] at isLow
        rw [isHighSurrogate_iff] at isHigh
        exact ⟨'u' :: digits, rfl, .unit hex (by omega)⟩
    · rw [if_neg numbered] at h
      cases escape : letterEscape? letter with
      | none =>
        simp only [escape] at h
        cases h
      | some e =>
        simp only [escape] at h
        cases h
        exact ⟨[letter], rfl, .letter (letterEscape?_eq_some_iff.mp escape)⟩

/-! ### Strings -/

/-- However a character is written, it is read. -/
theorem readStringRest_cons (h : Spells c form) :
    readStringRest (fuel + 1) read (form ++ rest) = readStringRest fuel (c :: read) rest := by
  have escaped {form : List Char} (h : Spells c ('\\' :: form)) :
      readStringRest (fuel + 1) read ('\\' :: (form ++ rest)) =
        readStringRest fuel (c :: read) rest := by
    rw [readStringRest, if_neg (by decide), if_pos rfl, readEscape_append h, ok_bind]
  cases h with
  | itself quote backslash printed =>
    rw [List.singleton_append, readStringRest, if_neg quote, if_neg backslash,
      if_neg (Nat.not_lt_of_le printed)]
  | letter escapes => exact escaped (.letter escapes)
  | unit hex single => exact escaped (.unit hex single)
  | pair hex hex' isHigh isLow => exact escaped (.pair hex hex' isHigh isLow)

theorem Spells.length_pos (h : Spells c form) : 0 < form.length := by
  cases h <;> exact Nat.succ_pos _

/-- No character is written without any character. -/
theorem Spelled.length_le (h : Spelled cs form) : cs.length ≤ form.length := by
  induction h with
  | nil => exact Nat.le_refl _
  | cons first _ ih =>
    have := first.length_pos
    rw [List.length_append, List.length_cons]
    omega

/-- Up to the closing quote the characters are read that are spelled. -/
theorem readStringRest_append (h : Spelled cs form) (enough : cs.length < fuel) :
    readStringRest fuel read (form ++ '"' :: rest) =
      .ok (String.ofList (read.reverse ++ cs), rest) := by
  induction h generalizing fuel read with
  | nil =>
    obtain ⟨fuel, rfl⟩ := Nat.exists_eq_succ_of_ne_zero (Nat.ne_zero_of_lt enough)
    rw [List.append_nil]
    exact if_pos rfl
  | cons first _ ih =>
    obtain ⟨fuel, rfl⟩ := Nat.exists_eq_succ_of_ne_zero (Nat.ne_zero_of_lt enough)
    rw [List.append_assoc, readStringRest_cons first, ih (Nat.lt_of_succ_lt_succ enough),
      List.reverse_cons, List.append_assoc]
    rfl

/-- A string is read from behind its opening quote. -/
theorem readString_append (h : Spelled cs form) (rest : List Char) :
    readString (form ++ '"' :: rest) = .ok (String.ofList cs, rest) := by
  apply readStringRest_append h
  rw [List.length_append, List.length_cons]
  exact Nat.lt_of_le_of_lt h.length_le (Nat.lt_add_of_pos_right (Nat.succ_pos _))

/-- What is read up to the closing quote spells its characters. -/
theorem exists_spelled_of_readStringRest {value : String}
    (h : readStringRest fuel read s = .ok (value, rest)) :
    ∃ cs form, s = form ++ '"' :: rest ∧ Spelled cs form ∧
      value = String.ofList (read.reverse ++ cs) := by
  induction fuel generalizing read s with
  | zero => cases h
  | succ fuel ih =>
    -- One more character, in any of its forms, before those that the later rounds read.
    have more {c : Char} {form left : List Char} (first : Spells c form)
        (h : readStringRest fuel (c :: read) left = .ok (value, rest)) :
        ∃ cs forms, form ++ left = forms ++ '"' :: rest ∧ Spelled cs forms ∧
          value = String.ofList (read.reverse ++ cs) := by
      obtain ⟨cs, forms, rfl, spelled, rfl⟩ := ih h
      refine ⟨c :: cs, form ++ forms, by simp, .cons first spelled, by simp⟩
    cases s with
    | nil => cases h
    | cons c s =>
      rw [readStringRest] at h
      split_ifs at h with quote backslash control
      · subst quote
        cases h
        exact ⟨[], [], rfl, .nil, by simp⟩
      · subst backslash
        obtain ⟨⟨e, left⟩, escape, later⟩ := bind_eq_ok h
        obtain ⟨form, rfl, first⟩ := exists_spells_of_readEscape escape
        exact more first later
      · exact more (.itself quote backslash (Nat.le_of_not_lt control)) h

/-- What is read as a string, from behind its opening quote, is written as this string. -/
theorem exists_spelled_of_readString {value : String} (h : readString s = .ok (value, rest)) :
    ∃ form, s = form ++ '"' :: rest ∧ Spelled value.toList form := by
  obtain ⟨cs, form, split, spelled, rfl⟩ := exists_spelled_of_readStringRest h
  exact ⟨form, split, by simpa using spelled⟩

/-! ### Quoted texts -/

/-- A hexadecimal digit has the value that it was written for. -/
theorem digit?_hexDigit (n : Nat) : digit? 16 (hexDigit n) = some (n % 16) := by
  have each : ∀ m < 16, digit? 16 ((hexDigits m).headD '0') = some m := by decide
  exact each (n % 16) (Nat.mod_lt n (by decide))

/-- A control character is written by its number. -/
theorem spells_control (control : c.toNat < 0x20) :
    Spells c ['\\', 'u', '0', '0', hexDigit (c.toNat / 16), hexDigit c.toNat] := by
  have hex : Hex4 (((0 * 16 + 0) * 16 + c.toNat / 16 % 16) * 16 + c.toNat % 16)
      ['0', '0', hexDigit (c.toNat / 16), hexDigit c.toNat] :=
    .digits rfl rfl (digit?_hexDigit _) (digit?_hexDigit _)
  have value : ((0 * 16 + 0) * 16 + c.toNat / 16 % 16) * 16 + c.toNat % 16 = c.toNat := by omega
  rw [value] at hex
  have spells := Spells.unit hex (by omega)
  rwa [Char.ofNat_toNat] at spells

/-- A character is written as one of its spellings. -/
theorem spells_jsonEscape (c : Char) : Spells c (jsonEscape c) := by
  unfold jsonEscape
  split_ifs with quote backslash backspace feed line carriage tab control
  · exact .letter (by rw [quote]; decide)
  · exact .letter (by rw [backslash]; decide)
  · exact .letter (by rw [backspace]; decide)
  · exact .letter (by rw [feed]; decide)
  · exact .letter (by rw [line]; decide)
  · exact .letter (by rw [carriage]; decide)
  · exact .letter (by rw [tab]; decide)
  · exact spells_control control
  · exact .itself quote backslash (Nat.le_of_not_lt control)

/-- The characters of a text are written as one of its spellings. -/
theorem spelled_escaped (cs : List Char) : Spelled cs (cs.flatMap jsonEscape) := by
  induction cs with
  | nil => exact .nil
  | cons c cs ih => exact .cons (spells_jsonEscape c) ih

end Json

end ShardCut
