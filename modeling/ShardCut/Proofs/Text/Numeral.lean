import Mathlib.Tactic.SplitIfs
import ShardCut.Text.Numeral

/-!
Decimal numerals, written and read. The digits of a number, the most significant first, are digits
for the readers too, and they read as the number again. Only zero is written with a leading zero,
but a run of digits that is read may have any number of them. What is read as a count or as an
integer with a sign is stated without the readers, by `Counts` and `Signed`.

Main definitions: `IsDigits`, `valueOf`, `Counts`, `Signed`. Main results: `readCount?_eq_some_iff`,
`readInt64?_eq_some_iff`, `signed_toString`.
-/

namespace ShardCut

namespace Text

def digitValue (c : Char) : Nat := c.toNat - '0'.toNat

theorem digit?_of_isDigit {c : Char} (h : c.isDigit = true) :
    digit? 10 c = some (digitValue c) := by
  rcases Char.isDigit_iff_toNat.mp h with ⟨least, greatest⟩
  have small : digitValue c < 10 := by
    change c.toNat - 48 < 10
    change c.toNat ≤ 57 at greatest
    omega
  rw [digit?, if_pos ⟨least, greatest⟩]
  exact Option.filter_some_pos (decide_eq_true small)

theorem isSome_digit?_of_isDigit {c : Char} (h : c.isDigit = true) : (digit? 10 c).isSome := by
  rw [digit?_of_isDigit h]
  rfl

theorem ne_of_isDigit {c d : Char} (h : c.isDigit = true) (hd : d.isDigit = false) : c ≠ d := by
  rintro rfl
  rw [h] at hd
  cases hd

def digitsOf (n : Nat) : List Nat := (Nat.toDigits 10 n).map digitValue

/-- The digits of a number make up the number. -/
theorem ofDigits_digitsOf (n : Nat) : ofDigits 10 (digitsOf n) = n := by
  rw [ofDigits, digitsOf, List.foldl_map]
  exact Nat.ofDigitChars_ten_toDigits

theorem digitsOf_ne_nil (n : Nat) : digitsOf n ≠ [] := by
  rw [digitsOf, ne_eq, List.map_eq_nil_iff]
  exact Nat.toDigits_ne_nil

theorem digitsOf_of_lt_ten {n : Nat} (h : n < 10) : digitsOf n = [n] := by
  rw [digitsOf, Nat.toDigits_of_lt_base h, List.map_singleton, digitValue,
    Nat.toNat_digitChar_of_lt_ten h]
  exact congrArg List.singleton (Nat.add_sub_cancel_left 48 n)

/-- The digits of a large number are those of a tenth of it and one more. -/
theorem digitsOf_of_ten_le {n : Nat} (h : 10 ≤ n) :
    digitsOf n = digitsOf (n / 10) ++ digitsOf (n % 10) := by
  have last : n % 10 < 10 := Nat.mod_lt n (by decide)
  rw [digitsOf, Nat.toDigits_of_base_le (by decide) h, List.map_append,
    ← Nat.toDigits_of_lt_base last]
  rfl

/-- A leading zero is the only digit. -/
theorem digitsOf_of_leading_zero {n : Nat} (h : (digitsOf n).head? = some 0) :
    digitsOf n = [0] := by
  induction n using Nat.strongRecOn with
  | _ n ih =>
    rcases Nat.lt_or_ge n 10 with small | large
    · rw [digitsOf_of_lt_ten small] at h ⊢
      obtain rfl : n = 0 := Option.some.inj h
      rfl
    · -- The leading digit is that of the number without its last digit, which is not zero.
      exfalso
      obtain ⟨d, ds, front⟩ := List.exists_cons_of_ne_nil (digitsOf_ne_nil (n / 10))
      rw [digitsOf_of_ten_le large, front] at h
      have zero : digitsOf (n / 10) = [0] := by
        apply ih (n / 10) (Nat.div_lt_self (by omega) (by decide))
        rw [front]
        exact h
      have none : n / 10 = 0 := by
        rw [← ofDigits_digitsOf (n / 10), zero]
        rfl
      omega

/-! ### Numerals that are read -/

/-- Only a decimal digit has a value below ten. -/
theorem isDigit_of_digit? {c : Char} {d : Nat} (h : digit? 10 c = some d) : c.isDigit = true := by
  unfold digit? at h
  obtain ⟨value, small⟩ := Option.filter_eq_some_iff.mp h
  rw [decide_eq_true_eq] at small
  split_ifs at value with decimal lower upper
  · exact Char.isDigit_iff_toNat.mpr decimal
  · -- A letter continues after `9`, so its value is ten at least.
    obtain rfl := Option.some.inj value
    omega
  · obtain rfl := Option.some.inj value
    omega

theorem digit?_eq_some_iff {c : Char} {d : Nat} :
    digit? 10 c = some d ↔ c.isDigit = true ∧ d = digitValue c := by
  constructor
  · intro h
    have digit := isDigit_of_digit? h
    rw [digit?_of_isDigit digit] at h
    exact ⟨digit, (Option.some.inj h).symm⟩
  · rintro ⟨digit, rfl⟩
    exact digit?_of_isDigit digit

/-- A run of decimal digits, of which there is at least one. -/
structure IsDigits (s : List Char) : Prop where
  some_digit : s ≠ []
  digit : ∀ c ∈ s, c.isDigit = true

/-- The number that a run of decimal digits stands for. -/
def valueOf (s : List Char) : Nat := ofDigits 10 (s.map digitValue)

/-- What is read as digits are digits. -/
theorem mapM_digit?_eq_some_iff {s : List Char} {ds : List Nat} :
    s.mapM (digit? 10) = some ds ↔ (∀ c ∈ s, c.isDigit = true) ∧ ds = s.map digitValue := by
  induction s generalizing ds with
  | nil => simp [eq_comm (b := ds)]
  | cons c s ih =>
    simp only [List.mapM_cons, Option.pure_def, Option.bind_eq_bind, Option.bind_eq_some_iff,
      digit?_eq_some_iff, ih, Option.some_inj, List.forall_mem_cons, List.map_cons]
    constructor
    · rintro ⟨d, ⟨digit, rfl⟩, ds, ⟨digits, rfl⟩, rfl⟩
      exact ⟨⟨digit, digits⟩, rfl⟩
    · rintro ⟨⟨digit, digits⟩, rfl⟩
      exact ⟨_, ⟨digit, rfl⟩, _, ⟨digits, rfl⟩, rfl⟩

/-- A run of digits, and nothing else, is read as its value. -/
theorem readNat?_eq_some_iff {s : List Char} {n : Nat} :
    readNat? 10 s = some n ↔ IsDigits s ∧ n = valueOf s := by
  cases s with
  | nil =>
    constructor
    · intro h
      cases h
    · rintro ⟨⟨none, -⟩, -⟩
      exact (none rfl).elim
  | cons c s =>
    rw [readNat?, if_neg (by simp), Option.map_eq_some_iff]
    simp only [mapM_digit?_eq_some_iff]
    constructor
    · rintro ⟨ds, ⟨digits, rfl⟩, rfl⟩
      exact ⟨⟨List.cons_ne_nil _ _, digits⟩, rfl⟩
    · rintro ⟨⟨-, digits⟩, rfl⟩
      exact ⟨_, ⟨digits, rfl⟩, rfl⟩

/-- A count as it may be written: digits, with one plus sign before them or none, and a value that
    an unsigned 64-bit word can hold. -/
inductive Counts : List Char → Nat → Prop where
  | bare {digits : List Char} (run : IsDigits digits) (fits : valueOf digits < UInt64.size) :
      Counts digits (valueOf digits)
  | plus {digits : List Char} (run : IsDigits digits) (fits : valueOf digits < UInt64.size) :
      Counts ('+' :: digits) (valueOf digits)

/-- A text is read as a count just when it counts as one. -/
theorem readCount?_eq_some_iff {s : List Char} {n : Nat} : readCount? s = some n ↔ Counts s n := by
  have read : readCount? s = some n ↔
      (IsDigits (dropPlus s) ∧ n = valueOf (dropPlus s)) ∧ n < UInt64.size := by
    rw [readCount?, Option.filter_eq_some_iff, readNat?_eq_some_iff, decide_eq_true_eq]
  rw [read]
  constructor
  · rintro ⟨⟨run, rfl⟩, fits⟩
    cases s with
    | nil => exact (run.some_digit rfl).elim
    | cons c s =>
      by_cases sign : c = '+'
      · subst sign
        exact .plus run fits
      · simp only [dropPlus, if_neg sign] at run fits ⊢
        exact .bare run fits
  · intro counts
    cases counts with
    | bare run fits =>
      have same : dropPlus s = s := by
        cases s with
        | nil => rfl
        | cons c s => exact if_neg (ne_of_isDigit (run.digit c List.mem_cons_self) rfl)
      rw [same]
      exact ⟨⟨run, rfl⟩, fits⟩
    | plus run fits => exact ⟨⟨run, rfl⟩, fits⟩

/-- An integer as it may be written: digits, with one sign before them or none. -/
inductive Signed : List Char → Int → Prop where
  | bare {digits : List Char} (run : IsDigits digits) : Signed digits (valueOf digits)
  | plus {digits : List Char} (run : IsDigits digits) : Signed ('+' :: digits) (valueOf digits)
  | minus {digits : List Char} (run : IsDigits digits) : Signed ('-' :: digits) (-valueOf digits)

/-- A text is read as an integer just when it is a signed numeral of it. -/
theorem readInt?_eq_some_iff {s : List Char} {v : Int} : readInt? s = some v ↔ Signed s v := by
  constructor
  · intro read
    cases s with
    | nil => cases read
    | cons c s =>
      rw [readInt?] at read
      split_ifs at read with plus minus
      all_goals
        obtain ⟨n, digits, rfl⟩ := Option.map_eq_some_iff.mp read
        obtain ⟨run, rfl⟩ := readNat?_eq_some_iff.mp digits
      · subst plus
        exact .plus run
      · subst minus
        exact .minus run
      · exact .bare run
  · intro signed
    cases signed with
    | bare run =>
      obtain ⟨c, s, rfl⟩ := List.exists_cons_of_ne_nil run.some_digit
      have digit := run.digit c List.mem_cons_self
      rw [readInt?, if_neg (ne_of_isDigit digit rfl), if_neg (ne_of_isDigit digit rfl),
        readNat?_eq_some_iff.mpr ⟨run, rfl⟩]
      rfl
    | plus run =>
      rw [readInt?, if_pos rfl, readNat?_eq_some_iff.mpr ⟨run, rfl⟩]
      rfl
    | minus run =>
      rw [readInt?, if_neg (by decide), if_pos rfl, readNat?_eq_some_iff.mpr ⟨run, rfl⟩]
      rfl

/-! ### Signed 64-bit values -/

theorem fitsInt64_toInt (value : Int64) : FitsInt64 value.toInt :=
  ⟨value.minValue_le_toInt, value.toInt_le⟩

theorem toInt_ofInt_of_fits {v : Int} (h : FitsInt64 v) : (Int64.ofInt v).toInt = v :=
  Int64.toInt_ofInt_of_le h.1 (Int.lt_add_one_of_le h.2)

/-- A text is read as a signed word just when it is a signed numeral of its value. -/
theorem readInt64?_eq_some_iff {s : List Char} {value : Int64} :
    readInt64? s = some value ↔ Signed s value.toInt := by
  simp only [readInt64?, Option.bind_eq_some_iff, readInt?_eq_some_iff]
  constructor
  · rintro ⟨v, signed, kept⟩
    split_ifs at kept with fits
    obtain rfl := Option.some.inj kept
    rwa [toInt_ofInt_of_fits fits]
  · intro signed
    refine ⟨value.toInt, signed, ?_⟩
    rw [if_pos (fitsInt64_toInt value), Int64.ofInt_toInt]

/-! ### Numbers that are written -/

theorem isDigits_toDigits (n : Nat) : IsDigits (Nat.toDigits 10 n) where
  some_digit := Nat.toDigits_ne_nil
  digit _ hc := Nat.isDigit_of_mem_toDigits (by decide) (by decide) hc

theorem valueOf_toDigits (n : Nat) : valueOf (Nat.toDigits 10 n) = n := ofDigits_digitsOf n

theorem toList_toString_of_nonneg {value : Int} (h : 0 ≤ value) :
    (toString value).toList = Nat.toDigits 10 value.toNat := by
  rw [Int.toString_eq_repr, Int.repr_eq_if, if_pos h, Nat.repr_eq_ofList_toDigits,
    String.toList_ofList]

theorem toList_toString_of_neg {value : Int} (h : value < 0) :
    (toString value).toList = '-' :: Nat.toDigits 10 (-value).toNat := by
  rw [Int.toString_eq_repr, Int.repr_eq_if, if_neg (Int.not_le_of_gt h),
    Nat.repr_eq_ofList_toDigits, String.toList_append, String.toList_ofList, String.toList_ofList]
  rfl

/-- An integer is written as a signed numeral of it. -/
theorem signed_toString (v : Int) : Signed (toString v).toList v := by
  rcases Int.lt_or_le v 0 with negative | positive
  · have signed := Signed.minus (isDigits_toDigits (-v).toNat)
    rw [valueOf_toDigits, Int.toNat_of_nonneg (by omega), Int.neg_neg] at signed
    rwa [toList_toString_of_neg negative]
  · have signed := Signed.bare (isDigits_toDigits v.toNat)
    rw [valueOf_toDigits, Int.toNat_of_nonneg positive] at signed
    rwa [toList_toString_of_nonneg positive]

end Text

end ShardCut
