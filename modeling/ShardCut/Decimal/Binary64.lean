/-!
Magnitudes of the binary64 format in exact arithmetic. A magnitude is `mantissa * 2 ^ exponent`;
`ofRatio?` rounds a quotient of naturals to the nearest one, ties to the even mantissa, and products
and quotients of magnitudes are rounded once from their exact value. Nothing here depends on the
machine's floating point, so every value can be computed inside a proof.

Main definitions: `Binary64`, `Binary64.ofRatio?`, `Binary64.ofScientific?`.
-/

namespace ShardCut.Decimal

/-- The quotient `n / d` rounded to the nearest natural; a half goes to the even neighbour. -/
def roundHalfEven (n d : Nat) : Nat :=
  let k := n / d
  let r := n % d
  if 2 * r < d then k
  else if d < 2 * r then k + 1
  else if k % 2 = 0 then k else k + 1

/-- A finite magnitude `mantissa * 2 ^ exponent`. -/
structure Binary64 where
  mantissa : Nat
  exponent : Int
deriving DecidableEq, Repr

namespace Binary64

/-- The least exponent: the one of the subnormal magnitudes. -/
def minExponent : Int := -1074

def maxExponent : Int := 971

def zero : Binary64 := ⟨0, minExponent⟩

def toRatio (b : Binary64) : Nat × Nat :=
  (b.mantissa * Nat.pow 2 b.exponent.toNat, Nat.pow 2 (-b.exponent).toNat)

/-- The exponent at which `num / den` has a mantissa of 53 bits, or the least one if there it has
    fewer. -/
def exponentOfRatio (num den : Nat) : Int :=
  let guess : Int := (Nat.log2 num : Int) - Nat.log2 den - 52
  let reaches := den * Nat.pow 2 (guess + 52).toNat ≤ num * Nat.pow 2 (-(guess + 52)).toNat
  max minExponent (if reaches then guess else guess - 1)

/-- The magnitude nearest to `num / den`, or `none` if it is too large for the format. -/
def ofRatio? (num den : Nat) : Option Binary64 :=
  if num = 0 then some zero
  else
    let e := exponentOfRatio num den
    let m := roundHalfEven (num * Nat.pow 2 (-e).toNat) (den * Nat.pow 2 e.toNat)
    -- Rounding up may reach 54 bits; the value is then a power of two one exponent higher.
    let b : Binary64 := if m = Nat.pow 2 53 then ⟨Nat.pow 2 52, e + 1⟩ else ⟨m, e⟩
    if maxExponent < b.exponent then none else some b

/-- The product, rounded. -/
def mul? (a b : Binary64) : Option Binary64 :=
  let (an, ad) := a.toRatio
  let (bn, bd) := b.toRatio
  ofRatio? (an * bn) (ad * bd)

/-- The quotient by a magnitude that is not zero, rounded. -/
def div (a b : Binary64) : Binary64 :=
  let (an, ad) := a.toRatio
  let (bn, bd) := b.toRatio
  (ofRatio? (an * bd) (ad * bn)).getD zero

/-- The magnitude nearest to a power of ten with an exponent of at most 308. -/
def powerOfTen (k : Nat) : Binary64 := (ofRatio? (Nat.pow 10 k) 1).getD zero

/-- The greatest power of ten of the format. -/
def maxPowerOfTen : Nat := 308

/-- Divides by `10 ^ k`, in steps that each divide by a power of ten of the format. -/
def divPowerOfTen (a : Binary64) (k : Nat) : Binary64 :=
  if k ≤ maxPowerOfTen then a.div (powerOfTen k)
  else if a.mantissa = 0 then a
  else (a.div (powerOfTen maxPowerOfTen)).divPowerOfTen (k - maxPowerOfTen)
termination_by k
decreasing_by simp only [maxPowerOfTen] at *; omega

/-- The magnitude that `significand * 10 ^ exponent` is read as, or `none` if it is too large: the
    significand is rounded first, and then multiplied or divided by a rounded power of ten. -/
def ofScientific? (significand : Nat) (exponent : Int) : Option Binary64 := do
  let s ← ofRatio? significand 1
  if exponent < 0 then some (s.divPowerOfTen (-exponent).toNat)
  else if exponent ≤ maxPowerOfTen then s.mul? (powerOfTen exponent.toNat)
  else if s.mantissa = 0 then some s
  else none

example : ofScientific? 15 (-1) = some ⟨3 * 2 ^ 51, -52⟩ := by decide +kernel
example : ofScientific? 1 309 = none := by decide +kernel

end Binary64

end ShardCut.Decimal
