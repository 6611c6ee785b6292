/-!
Global ids. Inside a sharded graph a vertex is called by a 64-bit word: the high bits hold the shard
that owns it and the low bits its slot, the position among the vertices of that shard. How the word
is cut depends on the number of shards alone.

`IdLayout.pack` and the pair `IdLayout.shardOf`, `IdLayout.slotOf` translate between the word and
its two fields. Packing drops the bits of a field that do not fit.

Main definitions: `GlobalId`, `IdLayout`, `IdLayout.ofShards`, `IdLayout.pack`.
-/

namespace ShardCut

/-- The word that calls a vertex inside a sharded graph. -/
abbrev GlobalId := UInt64

/-- How a word is cut: its low `slotBits` bits are the slot. At least one bit is left for the
    shard. -/
structure IdLayout where
  slotBits : Nat
  slotBits_lt : slotBits < 64
deriving DecidableEq, Repr

namespace IdLayout

/-- The number of bits of the shard field: the least `b ≥ 1` with `shards ≤ 2 ^ b`. -/
def shardBits (shards : Nat) : Nat := if shards ≤ 2 then 1 else Nat.log2 (shards - 1) + 1

theorem one_le_shardBits (shards : Nat) : 1 ≤ shardBits shards := by
  unfold shardBits
  split <;> omega

/-- The layout for a number of shards. -/
def ofShards (shards : Nat) : IdLayout where
  slotBits := 64 - shardBits shards
  slotBits_lt := by
    have := one_le_shardBits shards
    omega

/-- The distance by which the shard field is shifted. -/
def shift (layout : IdLayout) : UInt64 := UInt64.ofNat layout.slotBits

/-- The word whose ones are the bits of the slot field. -/
def slotMask (layout : IdLayout) : UInt64 := (1 <<< layout.shift) - 1

/-- The greatest slot. -/
def maxSlot (layout : IdLayout) : Nat := layout.slotMask.toNat

/-- The word with these fields. -/
def pack (layout : IdLayout) (shard slot : Nat) : GlobalId :=
  (UInt64.ofNat shard <<< layout.shift) ||| (UInt64.ofNat slot &&& layout.slotMask)

def shardOf (layout : IdLayout) (id : GlobalId) : Nat := (id >>> layout.shift).toNat

def slotOf (layout : IdLayout) (id : GlobalId) : Nat := (id &&& layout.slotMask).toNat

example : (ofShards 4).pack 3 5 = 0xC000000000000005 := by decide
example : (ofShards (2 ^ 63 + 1)).maxSlot = 0 := by decide

end IdLayout

end ShardCut
