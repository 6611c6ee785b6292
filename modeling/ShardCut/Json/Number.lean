import ShardCut.Text.Numeral
import ShardCut.Decimal.Shortest

/-!
Numbers of JSON. A numeral without fraction and exponent is an integer if its value lies between
`-2 ^ 63` and `2 ^ 64 - 1` and it is not `-0`; every other numeral is a binary64 value. A numeral
whose binary64 value would be infinite has no value at all.

Main definitions: `Number`, `Numeral`, `Numeral.value?`.
-/

namespace ShardCut.Json

open Decimal

/-- The value of a numeral. -/
inductive Number where
  | integer (value : Int)
  | decimal (negative : Bool) (magnitude : Binary64)
deriving DecidableEq, Repr

/-- The parts of a numeral, as digit values. The fraction is empty if there is none; `exponent`
    holds a sign (`true` for minus) and digits. -/
structure Numeral where
  negative : Bool
  whole : List Nat
  fraction : Option (List Nat)
  exponent : Option (Bool × List Nat)
deriving DecidableEq, Repr

namespace Numeral

/-- The bound of the significand, which is kept in an unsigned 64-bit word. -/
def significandBound : Nat := UInt64.size

/-- Appends digits to a significand as long as it stays below the bound. Gives back the digits from
    the first one that does not fit. -/
def extend (significand : Nat) : List Nat → Nat × List Nat
  | [] => (significand, [])
  | d :: ds =>
    if 10 * significand + d < significandBound then extend (10 * significand + d) ds
    else (significand, d :: ds)

/-- An exponent beyond this bound is not evaluated. -/
def exponentBound : Nat := Nat.pow 2 31

/-- The binary64 value of a significand and an exponent of ten given by `exponent`. Digits of the
    exponent that lead beyond its bound make a significand other than zero vanish or overflow. -/
def magnitude? (significand : Nat) (scale : Int) : Option (Bool × List Nat) → Option Binary64
  | none => Binary64.ofScientific? significand scale
  | some (negative, digits) =>
    let value := Text.ofDigits 10 digits
    if exponentBound ≤ value then
      if significand = 0 ∨ negative = true then some .zero else none
    else
      Binary64.ofScientific? significand (if negative then scale - value else scale + value)

/-- The value of a numeral, or `none` if it is out of range. Digits that do not fit the significand
    count by their place only. -/
def value? (n : Numeral) : Option Number :=
  let (whole, dropped) := extend 0 n.whole
  let asDecimal (significand : Nat) (scale : Int) : Option Number :=
    (magnitude? significand scale n.exponent).map (.decimal n.negative)
  match n.fraction with
  | some digits =>
    let (significand, beyond) := extend whole digits
    asDecimal significand (dropped.length + beyond.length - digits.length)
  | none =>
    if n.exponent.isSome ∨ dropped ≠ [] then asDecimal whole dropped.length
    else if n.negative = false then some (.integer whole)
    else if 0 < whole ∧ whole ≤ Nat.pow 2 63 then some (.integer (-whole))
    else asDecimal whole 0

example : value? ⟨true, [0], none, none⟩ = some (.decimal true .zero) := by decide +kernel
example : value? ⟨false, [1], none, some (false, [9, 9, 9])⟩ = none := by decide +kernel

end Numeral

/-- Magnitudes from `10 ^ -5` to below `10 ^ 16` are written positionally. -/
def floatFormat : FloatFormat := ⟨-5, 16⟩

/-- The text of a binary64 value. -/
def renderFloat (negative : Bool) (magnitude : Binary64) : String :=
  (if negative then "-" else "") ++ floatFormat.render magnitude

example : (Binary64.ofScientific? 1 16).map (renderFloat true) = some "-1e+16" := by
  decide +kernel
example : (Binary64.ofScientific? 12 (-6)).map (renderFloat false) = some "0.000012" := by
  decide +kernel
example : renderFloat false ⟨2 ^ 52 + 1, -2⟩ = "1125899906842624.2" := by decide +kernel

end ShardCut.Json
