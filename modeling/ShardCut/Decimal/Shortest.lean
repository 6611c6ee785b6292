import ShardCut.Decimal.Binary64

/-!
The shortest decimal text of a binary64 magnitude: the fewest digits that read back as the same
magnitude and, among those of that length, the nearest, where a tie goes to the even last digit. The
search runs over the decimal grids of 1, 2, … 17 digits; on each grid only the two neighbours of the
value can be nearest, and 17 digits always suffice.

Main definitions: `Binary64.shortest`, `FloatFormat.render`.
-/

namespace ShardCut.Decimal

namespace Binary64

/-- Half the distance to the next magnitude below and above, in quarters of the last place. A power
    of two has a closer neighbour below, unless it is subnormal. -/
def halfGaps (b : Binary64) : Nat × Nat :=
  if b.mantissa = Nat.pow 2 52 ∧ minExponent < b.exponent then (1, 2) else (2, 2)

/-- Whether `x * 10 ^ k` reads back as `b`: it lies between the half-way points to the neighbours of
    `b`, which themselves count when the mantissa is even. -/
def readsBack (b : Binary64) (x : Nat) (k : Int) : Bool :=
  let (below, above) := b.halfGaps
  -- Both sides in quarters of the last place, cleared of denominators.
  let value := 4 * (x * Nat.pow 10 k.toNat) * Nat.pow 2 (-b.exponent).toNat
  let unit := Nat.pow 10 (-k).toNat * Nat.pow 2 b.exponent.toNat
  let low := (4 * b.mantissa - below) * unit
  let high := (4 * b.mantissa + above) * unit
  if b.mantissa % 2 = 0 then low ≤ value && value ≤ high else low < value && value < high

/-- The exponent of the leading decimal digit: the `e` with `10 ^ e ≤ b < 10 ^ (e + 1)`. -/
def leadingExponent (b : Binary64) : Int :=
  let (num, den) := b.toRatio
  if den ≤ num then ((Nat.toDigits 10 (num / den)).length : Int) - 1
  else -(((List.range 400).find? fun j => den ≤ num * Nat.pow 10 j).getD 0 : Nat)

/-- The point of the grid `10 ^ k` that is nearest to `b` among those that read back. Of two equally
    near points it is the even one. -/
def nearestOnGrid? (b : Binary64) (k : Int) : Option Nat :=
  let (num, den) := b.toRatio
  let n := num * Nat.pow 10 (-k).toNat
  let d := den * Nat.pow 10 k.toNat
  let below := n / d
  let above := below + 1
  match b.readsBack below k, b.readsBack above k with
  | true, true =>
    some (if 2 * (n % d) < d ∨ (2 * (n % d) = d ∧ below % 2 = 0) then below else above)
  | true, false => some below
  | false, true => some above
  | false, false => none

/-- The shortest digits of a magnitude that is not zero, as `x` and `k` with value `x * 10 ^ k`. -/
def shortest (b : Binary64) : Nat × Int :=
  let e := b.leadingExponent
  let grids : List Int := (List.range 17).map fun places => e - (places : Nat)
  (grids.findSome? fun k => (b.nearestOnGrid? k).map fun x => (x, k)).getD (0, 0)

end Binary64

/-- How a magnitude is written: the exponents of the leading digit that are written positionally. -/
structure FloatFormat where
  leastPositional : Int
  endPositional : Int

/-- Digits without the zeros at the end, and how many zeros that were. -/
def dropTrailingZeros (digits : List Char) : List Char × Nat :=
  let rest := (digits.reverse.dropWhile (· = '0')).reverse
  (rest, digits.length - rest.length)

/-- An exponent of ten after its letter, always with a sign. -/
def renderExponent (e : Int) : String := (if e < 0 then "e-" else "e+") ++ toString e.natAbs

/-- Writes a magnitude with its shortest digits. Positional text always has a digit after the point;
    other text has one digit before the point, no empty fraction, and a signed exponent. -/
def FloatFormat.render (format : FloatFormat) (b : Binary64) : String :=
  if b.mantissa = 0 then "0.0"
  else
    let (x, k) := b.shortest
    let (digits, zeros) := dropTrailingZeros (Nat.toDigits 10 x)
    let count : Int := digits.length
    let e := k + zeros + count - 1
    if format.leastPositional ≤ e ∧ e < format.endPositional then
      if e < 0 then
        "0." ++ String.ofList (List.replicate (-e - 1).toNat '0' ++ digits)
      else
        let whole := digits.take (e + 1).toNat
        let fraction := digits.drop (e + 1).toNat
        let padding := List.replicate (e + 1 - count).toNat '0'
        String.ofList (whole ++ padding) ++ "." ++
          (if fraction.isEmpty then "0" else String.ofList fraction)
    else
      let fraction := digits.drop 1
      String.ofList (digits.take 1) ++
        (if fraction.isEmpty then "" else "." ++ String.ofList fraction) ++ renderExponent e

end ShardCut.Decimal
