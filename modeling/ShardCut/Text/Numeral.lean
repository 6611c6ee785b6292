/-!
Integer numerals of graph files, command lines and settings: a sign, digits, and a range. Leading
zeros carry no meaning, `+` may stand before any numeral, and nothing else is skipped: no blanks, no
separators between digits.

Main definitions: `readInt64?`, `readCount?`.
-/

namespace ShardCut.Text

/-- The value of a digit below `radix`; letters of either case continue after `9`. -/
def digit? (radix : Nat) (c : Char) : Option Nat :=
  let value :=
    if '0' ≤ c ∧ c ≤ '9' then some (c.toNat - '0'.toNat)
    else if 'a' ≤ c ∧ c ≤ 'z' then some (c.toNat - 'a'.toNat + 10)
    else if 'A' ≤ c ∧ c ≤ 'Z' then some (c.toNat - 'A'.toNat + 10)
    else none
  value.filter (· < radix)

/-- The number with these digits, the most significant first. -/
def ofDigits (radix : Nat) (digits : List Nat) : Nat :=
  digits.foldl (fun value d => radix * value + d) 0

/-- Reads a run of one or more digits, and nothing else. -/
def readNat? (radix : Nat) (s : List Char) : Option Nat :=
  if s.isEmpty then none else (s.mapM (digit? radix)).map (ofDigits radix)

/-- Reads a decimal numeral with at most one sign. -/
def readInt? : List Char → Option Int
  | [] => none
  | c :: s =>
    if c = '+' then (readNat? 10 s).map Int.ofNat
    else if c = '-' then (readNat? 10 s).map fun n => -(Int.ofNat n)
    else (readNat? 10 (c :: s)).map Int.ofNat

/-- Whether a value lies in the range of signed 64-bit integers. -/
def FitsInt64 (v : Int) : Prop := Int64.minValue.toInt ≤ v ∧ v ≤ Int64.maxValue.toInt

instance (v : Int) : Decidable (FitsInt64 v) :=
  inferInstanceAs (Decidable (Int64.minValue.toInt ≤ v ∧ v ≤ Int64.maxValue.toInt))

/-- Reads a signed 64-bit numeral; a value out of range is refused, not wrapped. -/
def readInt64? (s : List Char) : Option Int64 :=
  (readInt? s).bind fun v => if FitsInt64 v then some (Int64.ofInt v) else none

/-- Drops one leading plus sign. -/
def dropPlus : List Char → List Char
  | [] => []
  | c :: s => if c = '+' then s else c :: s

/-- Reads an unsigned 64-bit numeral, the form of counts and indices. A minus sign is refused even
    before zero. -/
def readCount? (s : List Char) : Option Nat :=
  (readNat? 10 (dropPlus s)).filter (· < UInt64.size)

example : readInt64? "-9223372036854775808".toList = some (-9223372036854775808) := by decide
example : readInt64? "9223372036854775808".toList = none := by decide
example : readCount? "+007".toList = some 7 := by decide

end ShardCut.Text
