/-!
Capacity: how many records of a size fit the address space. A table that is asked to hold more of
them cannot be made, whatever would be put into it.

Main definitions: `recordBound`.
-/

namespace ShardCut

/-- The size of the address space in bytes. -/
def addressSpace : Nat := Nat.pow 2 63

/-- The least number of records of a size, in bytes, that do not fit the address space. -/
def recordBound (size : Nat) : Nat := (addressSpace + size - 1) / size

example : 24 * (recordBound 24 - 1) < addressSpace ∧ addressSpace ≤ 24 * recordBound 24 := by
  decide

end ShardCut
