import ShardCut.Proofs.Json.Grammar

/-!
Which texts are read as integers. The digits of an integer, followed by nothing that could continue
a numeral, are read as their value, if a word can hold it: below `2 ^ 64`, or, after a minus sign,
up to `2 ^ 63`. Whatever is read as an integer is written in this way.

Main definitions: `EndsNumeral`. Main results: `integral_of_value?`, `readNumber_append`,
`exists_literal_of_readNumber`.
-/

namespace ShardCut

namespace Json

open Text

/-- A text that does not continue a numeral: it does not start with a digit, a point or the letter
    of an exponent. -/
structure EndsNumeral (rest : List Char) : Prop where
  digit : ∀ c ∈ rest.head?, digit? 10 c = none
  point : ∀ c ∈ rest.head?, c ≠ '.'
  exponent : ∀ c ∈ rest.head?, ¬(c = 'e' ∨ c = 'E')

variable {s rest digits : List Char} {ds : List Nat} {n : Nat} {negative : Bool}

theorem ok_bind {α β : Type} (x : α) (next : α → Except Fault β) :
    ((.ok x : Except Fault α) >>= next) = next x := rfl

/-- A step whose outcome is used by another one. -/
theorem bind_eq_ok {α β : Type} {x : Except Fault α} {next : α → Except Fault β} {y : β}
    (h : (x >>= next) = .ok y) : ∃ a, x = .ok a ∧ next a = .ok y := by
  cases x with
  | error fault => cases h
  | ok a => exact ⟨a, rfl, h⟩

/-- A numeral ends before any character that neither goes on with digits nor begins a fraction or an
    exponent. -/
theorem endsNumeral_cons {c : Char} (digit : digit? 10 c = none) (point : c ≠ '.')
    (exponent : ¬(c = 'e' ∨ c = 'E')) (rest : List Char) : EndsNumeral (c :: rest) := by
  constructor
  all_goals
    rintro _ ⟨⟩
    assumption

theorem endsNumeral_comma (rest : List Char) : EndsNumeral (',' :: rest) :=
  endsNumeral_cons (by decide) (by decide) (by decide) rest

theorem endsNumeral_closed (rest : List Char) : EndsNumeral (']' :: rest) :=
  endsNumeral_cons (by decide) (by decide) (by decide) rest

/-- Space before a text that does not continue a numeral. -/
theorem EndsNumeral.space {space : List Char} (h : EndsNumeral rest) (spaces : IsSpaces space) :
    EndsNumeral (space ++ rest) := by
  cases space with
  | nil => exact h
  | cons c space =>
    have blank := spaces c List.mem_cons_self
    simp only [List.mem_cons, List.not_mem_nil, or_false] at blank
    rcases blank with rfl | rfl | rfl | rfl
    all_goals exact endsNumeral_cons (by decide) (by decide) (by decide) _

/-! ### Runs of digits -/

/-- All digits are taken, and nothing of what follows. -/
theorem takeDigits_append (all : ∀ c ∈ digits, c.isDigit = true) (ends : EndsNumeral rest) :
    takeDigits (digits ++ rest) = (digits.map digitValue, rest) := by
  induction digits with
  | nil =>
    cases rest with
    | nil => rfl
    | cons c rest =>
      have none := ends.digit c rfl
      rw [List.nil_append, takeDigits, none]
      rfl
  | cons c digits ih =>
    have digit := digit?_of_isDigit (all c List.mem_cons_self)
    have later := ih fun c hc => all c (List.mem_cons_of_mem _ hc)
    rw [List.cons_append, takeDigits, digit, later]
    rfl

theorem exists_digits_of_takeDigits (h : takeDigits s = (ds, rest)) :
    ∃ digits, s = digits ++ rest ∧ (∀ c ∈ digits, c.isDigit = true) ∧
      ds = digits.map digitValue := by
  induction s generalizing ds with
  | nil =>
    cases h
    exact ⟨[], rfl, nofun, rfl⟩
  | cons c s ih =>
    rw [takeDigits] at h
    cases hd : digit? 10 c with
    | none =>
      rw [hd] at h
      cases h
      exact ⟨[], rfl, nofun, rfl⟩
    | some d =>
      obtain ⟨digit, rfl⟩ := digit?_eq_some_iff.mp hd
      rw [hd] at h
      cases h
      obtain ⟨digits, split, run, values⟩ := ih rfl
      refine ⟨c :: digits, ?_, List.forall_mem_cons.mpr ⟨digit, run⟩, ?_⟩
      · exact congrArg (c :: ·) split
      · exact congrArg (digitValue c :: ·) values

theorem readDigits_append (run : IsDigits digits) (ends : EndsNumeral rest) :
    readDigits (digits ++ rest) = .ok (digits.map digitValue, rest) := by
  obtain ⟨c, cs, rfl⟩ := List.exists_cons_of_ne_nil run.some_digit
  rw [readDigits, takeDigits_append run.digit ends]
  rfl

theorem exists_digits_of_readDigits (h : readDigits s = .ok (ds, rest)) :
    ∃ digits, s = digits ++ rest ∧ IsDigits digits ∧ ds = digits.map digitValue := by
  cases ht : takeDigits s with
  | mk values left =>
    obtain ⟨digits, split, run, rfl⟩ := exists_digits_of_takeDigits ht
    rw [readDigits, ht] at h
    cases digits with
    | nil => cases left <;> cases h
    | cons c cs =>
      cases h
      exact ⟨c :: cs, split, ⟨List.cons_ne_nil _ _, run⟩, rfl⟩

/-! ### The parts of a numeral -/

theorem Whole.isDigits (h : Whole digits) : IsDigits digits := by
  cases h with
  | zero => exact ⟨List.cons_ne_nil _ _, List.forall_mem_singleton.mpr rfl⟩
  | digits lead run => exact ⟨List.cons_ne_nil _ _, run⟩

theorem digitValue_eq_zero_iff {c : Char} (h : c.isDigit = true) : digitValue c = 0 ↔ c = '0' := by
  obtain ⟨least, -⟩ := Char.isDigit_iff_toNat.mp h
  change 48 ≤ c.toNat at least
  constructor
  · intro zero
    change c.toNat - 48 = 0 at zero
    apply Char.toNat_inj.mp
    change c.toNat = 48
    omega
  · rintro rfl
    rfl

/-- A leading zero is the only digit. -/
theorem Whole.not_leading_zero (h : Whole digits) :
    ¬((digits.map digitValue).head? = some 0 ∧ digits.map digitValue ≠ [0]) := by
  rintro ⟨zero, more⟩
  cases h with
  | zero => exact more rfl
  | digits lead run =>
    exact lead ((digitValue_eq_zero_iff (run _ List.mem_cons_self)).mp (Option.some.inj zero))

/-- Digits without a leading zero are a whole number. -/
theorem whole_of_not_leading_zero (run : IsDigits digits)
    (lead : ¬((digits.map digitValue).head? = some 0 ∧ digits.map digitValue ≠ [0])) :
    Whole digits := by
  obtain ⟨c, cs, rfl⟩ := List.exists_cons_of_ne_nil run.some_digit
  by_cases hc : c = '0'
  · subst hc
    cases cs with
    | nil => exact .zero
    | cons d cs => exact (lead ⟨rfl, by simp⟩).elim
  · exact .digits hc run.digit

/-- A whole number is read, and what follows it is left. -/
theorem readWhole_append (whole : Whole digits) (ends : EndsNumeral rest) :
    readWhole (digits ++ rest) = .ok (digits.map digitValue, rest) := by
  rw [readWhole, readDigits_append whole.isDigits ends]
  exact if_neg whole.not_leading_zero

theorem exists_whole_of_readWhole (h : readWhole s = .ok (ds, rest)) :
    ∃ digits, s = digits ++ rest ∧ Whole digits ∧ ds = digits.map digitValue := by
  obtain ⟨⟨values, left⟩, read, accepted⟩ := bind_eq_ok h
  obtain ⟨digits, split, run, rfl⟩ := exists_digits_of_readDigits read
  by_cases lead : (digits.map digitValue).head? = some 0 ∧ digits.map digitValue ≠ [0]
  · simp only [if_pos lead] at accepted
    cases accepted
  · simp only [if_neg lead] at accepted
    cases accepted
    exact ⟨digits, split, whole_of_not_leading_zero run lead, rfl⟩

theorem readFraction_of_ends (ends : EndsNumeral rest) : readFraction rest = .ok (none, rest) := by
  cases rest with
  | nil => rfl
  | cons c rest => exact if_neg (ends.point c rfl)

theorem eq_of_readFraction (h : readFraction s = .ok (none, rest)) : s = rest := by
  cases s with
  | nil =>
    cases h
    rfl
  | cons c s =>
    rw [readFraction] at h
    split at h
    · obtain ⟨read, -, more⟩ := bind_eq_ok h
      cases more
    · cases h
      rfl

theorem readExponent_of_ends (ends : EndsNumeral rest) : readExponent rest = .ok (none, rest) := by
  cases rest with
  | nil => rfl
  | cons c rest => exact if_neg (ends.exponent c rfl)

theorem eq_of_readExponent (h : readExponent s = .ok (none, rest)) : s = rest := by
  cases s with
  | nil =>
    cases h
    rfl
  | cons c s =>
    rw [readExponent] at h
    split at h
    · obtain ⟨read, -, more⟩ := bind_eq_ok h
      cases more
    · cases h
      rfl

/-- A numeral without fraction and exponent is read as its digits. -/
theorem readNumeral_append (negative : Bool) (whole : Whole digits) (ends : EndsNumeral rest) :
    readNumeral negative (digits ++ rest) =
      .ok (⟨negative, digits.map digitValue, none, none⟩, rest) := by
  simp only [readNumeral, readWhole_append whole ends, readFraction_of_ends ends,
    readExponent_of_ends ends, ok_bind]

/-- A numeral without fraction and exponent is its digits. -/
theorem exists_whole_of_readNumeral {numeral : Numeral}
    (h : readNumeral negative s = .ok (numeral, rest)) (integral : numeral.fraction = none)
    (plain : numeral.exponent = none) :
    ∃ digits, s = digits ++ rest ∧ Whole digits ∧
      numeral = ⟨negative, digits.map digitValue, none, none⟩ := by
  obtain ⟨⟨ds, left⟩, hWhole, behindWhole⟩ := bind_eq_ok h
  obtain ⟨⟨fraction, left'⟩, hFraction, behindFraction⟩ := bind_eq_ok behindWhole
  obtain ⟨⟨exponent, left''⟩, hExponent, same⟩ := bind_eq_ok behindFraction
  cases same
  cases integral
  cases plain
  obtain ⟨digits, rfl, whole, rfl⟩ := exists_whole_of_readWhole hWhole
  obtain rfl := eq_of_readFraction hFraction
  obtain rfl := eq_of_readExponent hExponent
  exact ⟨digits, rfl, whole, rfl⟩

/-! ### The value of a numeral -/

theorem le_foldl_digits (value : Nat) (ds : List Nat) :
    value ≤ ds.foldl (fun value d => 10 * value + d) value := by
  induction ds generalizing value with
  | nil => exact Nat.le_refl value
  | cons d ds ih =>
    calc value ≤ 10 * value + d := by omega
      _ ≤ _ := ih (10 * value + d)

/-- Digits of a number that fits a word are all kept. -/
theorem extend_eq {value : Nat}
    (fits : ds.foldl (fun value d => 10 * value + d) value < Numeral.significandBound) :
    Numeral.extend value ds = (ds.foldl (fun value d => 10 * value + d) value, []) := by
  induction ds generalizing value with
  | nil => rfl
  | cons d ds ih =>
    have next : 10 * value + d < Numeral.significandBound :=
      Nat.lt_of_le_of_lt (le_foldl_digits _ ds) fits
    rw [Numeral.extend, if_pos next]
    exact ih fits

/-- If no digit is dropped, the value is that of the digits. -/
theorem extend_fst {value : Nat} (kept : (Numeral.extend value ds).2 = []) :
    (Numeral.extend value ds).1 = ds.foldl (fun value d => 10 * value + d) value := by
  induction ds generalizing value with
  | nil => rfl
  | cons d ds ih =>
    rw [Numeral.extend] at kept ⊢
    split at kept
    · next next =>
      rw [if_pos next]
      exact ih kept
    · cases kept

/-- Digits are kept only as long as their number fits a word. -/
theorem extend_fst_lt {value : Nat} (fits : value < Numeral.significandBound) (ds : List Nat) :
    (Numeral.extend value ds).1 < Numeral.significandBound := by
  induction ds generalizing value with
  | nil => exact fits
  | cons d ds ih =>
    rw [Numeral.extend]
    split
    · next next => exact ih next
    · exact fits

theorem value?_whole (fits : valueOf digits < UInt64.size) :
    Numeral.value? ⟨false, digits.map digitValue, none, none⟩ =
      some (.integer (valueOf digits)) := by
  have kept : Numeral.extend 0 (digits.map digitValue) = (valueOf digits, []) := extend_eq fits
  simp only [Numeral.value?, kept, Option.isSome_none, Bool.false_eq_true, ne_eq,
    not_true_eq_false, or_self, if_false, if_true]

theorem value?_whole_negative (nonzero : 0 < valueOf digits)
    (fits : valueOf digits ≤ Nat.pow 2 63) :
    Numeral.value? ⟨true, digits.map digitValue, none, none⟩ =
      some (.integer (-valueOf digits)) := by
  have word : valueOf digits < UInt64.size := Nat.lt_of_le_of_lt fits (by decide)
  have kept : Numeral.extend 0 (digits.map digitValue) = (valueOf digits, []) := extend_eq word
  have range : 0 < valueOf digits ∧ valueOf digits ≤ Nat.pow 2 63 := ⟨nonzero, fits⟩
  simp only [Numeral.value?, kept, Option.isSome_none, Bool.false_eq_true, ne_eq,
    not_true_eq_false, or_self, if_false, Bool.true_eq_false]
  exact if_pos range

/-- A numeral whose value is an integer has no fraction and no exponent, all of its digits count and
    fit a word, and a minus sign does not stand before zero. -/
theorem integral_of_value? {numeral : Numeral} {v : Int}
    (h : numeral.value? = some (.integer v)) :
    numeral.fraction = none ∧ numeral.exponent = none ∧
      ofDigits 10 numeral.whole < UInt64.size ∧
      (numeral.negative = false ∧ v = ofDigits 10 numeral.whole ∨
        numeral.negative = true ∧ 0 < ofDigits 10 numeral.whole ∧
          v = -ofDigits 10 numeral.whole) := by
  have noDecimal {b : Bool} {m? : Option Decimal.Binary64} :
      m?.map (Number.decimal b) ≠ some (.integer v) := by
    cases m? <;> simp
  have all (kept : (Numeral.extend 0 numeral.whole).2 = []) :
      (Numeral.extend 0 numeral.whole).1 = ofDigits 10 numeral.whole := extend_fst kept
  unfold Numeral.value? at h
  cases hf : numeral.fraction with
  | some digits =>
    simp only [hf] at h
    exact (noDecimal h).elim
  | none =>
    simp only [hf] at h
    split at h
    · exact (noDecimal h).elim
    · next plain =>
      obtain ⟨plain, kept⟩ := not_or.mp plain
      rw [ne_eq, Decidable.not_not] at kept
      have noExponent : numeral.exponent = none := by simpa using plain
      refine ⟨rfl, noExponent, ?_⟩
      rw [← all kept]
      refine ⟨extend_fst_lt (by decide) _, ?_⟩
      split at h
      · next positive =>
        cases h
        exact .inl ⟨positive, rfl⟩
      · next negative =>
        split at h
        · next range =>
          cases h
          exact .inr ⟨by simpa using negative, range.1, rfl⟩
        · exact (noDecimal h).elim

/-! ### Integers -/

/-- A whole number that fits a word is read as its value. -/
theorem readNumber_append (whole : Whole digits) (fits : valueOf digits < UInt64.size)
    (ends : EndsNumeral rest) :
    readNumber false (digits ++ rest) = .ok (.integer (valueOf digits), rest) := by
  simp only [readNumber, readNumeral_append false whole ends, ok_bind, value?_whole fits]

/-- The digits behind a minus sign are read as the negative value. -/
theorem readNumber_append_negative (whole : Whole digits) (nonzero : 0 < valueOf digits)
    (fits : valueOf digits ≤ Nat.pow 2 63) (ends : EndsNumeral rest) :
    readNumber true (digits ++ rest) = .ok (.integer (-valueOf digits), rest) := by
  simp only [readNumber, readNumeral_append true whole ends, ok_bind,
    value?_whole_negative nonzero fits]

/-- What is read as an integer, from behind its sign, is written as this integer. -/
theorem exists_literal_of_readNumber {v : Int}
    (h : readNumber negative s = .ok (.integer v, rest)) :
    ∃ digits, s = digits ++ rest ∧
      IntegerLiteral v (if negative then '-' :: digits else digits) := by
  obtain ⟨⟨numeral, left⟩, hNumeral, evaluated⟩ := bind_eq_ok h
  cases hv : numeral.value? with
  | none =>
    simp only [hv] at evaluated
    cases evaluated
  | some number =>
    simp only [hv] at evaluated
    cases evaluated
    obtain ⟨integral, plain, -, sign⟩ := integral_of_value? hv
    obtain ⟨digits, rfl, whole, rfl⟩ := exists_whole_of_readNumeral hNumeral integral plain
    refine ⟨digits, rfl, ?_⟩
    rcases sign with ⟨rfl, rfl⟩ | ⟨rfl, nonzero, rfl⟩
    · exact .positive whole
    · exact .negative whole nonzero

/-- An integer that is read fits a word. -/
theorem lt_of_readNumber {v : Int} (h : readNumber negative s = .ok (.integer v, rest)) :
    v < UInt64.size := by
  obtain ⟨⟨numeral, left⟩, -, evaluated⟩ := bind_eq_ok h
  cases hv : numeral.value? with
  | none =>
    simp only [hv] at evaluated
    cases evaluated
  | some number =>
    simp only [hv] at evaluated
    cases evaluated
    obtain ⟨-, -, fits, sign⟩ := integral_of_value? hv
    rcases sign with ⟨-, rfl⟩ | ⟨-, nonzero, rfl⟩
    · exact Int.ofNat_lt.mpr fits
    · exact Int.lt_trans (Int.neg_neg_of_pos (Int.natCast_pos.mpr nonzero)) (by decide)

/-! ### Numbers that were written -/

/-- The digits of a number do not begin with a zero, unless it is the only one. -/
theorem whole_toDigits (n : Nat) : Whole (Nat.toDigits 10 n) := by
  apply whole_of_not_leading_zero
  · exact isDigits_toDigits n
  · rintro ⟨zero, more⟩
    exact more (digitsOf_of_leading_zero zero)

/-- A number that was written is read as itself. -/
theorem readNumber_written (fits : n < UInt64.size) (ends : EndsNumeral rest) :
    readNumber false (Nat.toDigits 10 n ++ rest) = .ok (.integer n, rest) := by
  have value := valueOf_toDigits n
  have read := readNumber_append (whole_toDigits n) (value.symm ▸ fits) ends
  rwa [value] at read

end Json

end ShardCut
