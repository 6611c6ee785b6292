import Mathlib.Algebra.Group.Nat.Defs
import ShardCut.GlobalId

/-!
The two fields of a word. Read as a number, a word is its shard field times a power of two, plus its
slot field; so packing two fields that fit loses nothing, and every word is packed from its own
fields.

Main definitions: `shardLimit`. Main results: `shardOf_pack`, `slotOf_pack`, `pack_shardOf_slotOf`,
`le_shardLimit_ofShards`.
-/

namespace ShardCut

namespace IdLayout

variable {layout : IdLayout} {shard slot : Nat}

/-- The number of values of the shard field. -/
def shardLimit (layout : IdLayout) : Nat := 2 ^ (64 - layout.slotBits)

@[simp] theorem toNat_shift (layout : IdLayout) : layout.shift.toNat = layout.slotBits := by
  have := layout.slotBits_lt
  rw [shift, UInt64.toNat_ofNat', Nat.mod_eq_of_lt (by omega)]

@[simp] theorem toNat_shift_mod (layout : IdLayout) :
    layout.shift.toNat % 64 = layout.slotBits := by
  rw [toNat_shift, Nat.mod_eq_of_lt layout.slotBits_lt]

/-- The bit above the slot field is still in the word. -/
theorem toNat_slotBound (layout : IdLayout) :
    ((1 : UInt64) <<< layout.shift).toNat = 2 ^ layout.slotBits := by
  have lt : 2 ^ layout.slotBits < 2 ^ 64 :=
    Nat.pow_lt_pow_right (by decide) layout.slotBits_lt
  rw [UInt64.toNat_shiftLeft, toNat_shift_mod, UInt64.toNat_one, Nat.one_shiftLeft,
    Nat.mod_eq_of_lt lt]

theorem one_le_slotBound (layout : IdLayout) : (1 : UInt64) ≤ 1 <<< layout.shift := by
  rw [UInt64.le_iff_toNat_le, toNat_slotBound]
  exact Nat.one_le_two_pow

/-- The mask of the slot field has all its bits set. -/
theorem toNat_slotMask (layout : IdLayout) : layout.slotMask.toNat = 2 ^ layout.slotBits - 1 := by
  rw [slotMask, UInt64.toNat_sub_of_le _ _ layout.one_le_slotBound, toNat_slotBound,
    UInt64.toNat_one]

theorem lt_of_le_maxSlot (h : slot ≤ layout.maxSlot) : slot < 2 ^ layout.slotBits := by
  have := Nat.two_pow_pos layout.slotBits
  rw [maxSlot, toNat_slotMask] at h
  omega

/-- The shard field is the quotient by the size of the slot field. -/
theorem shardOf_eq (layout : IdLayout) (id : GlobalId) :
    layout.shardOf id = id.toNat / 2 ^ layout.slotBits := by
  rw [shardOf, UInt64.toNat_shiftRight, toNat_shift_mod, Nat.shiftRight_eq_div_pow]

/-- The slot field is the remainder by its size. -/
theorem slotOf_eq (layout : IdLayout) (id : GlobalId) :
    layout.slotOf id = id.toNat % 2 ^ layout.slotBits := by
  rw [slotOf, UInt64.toNat_and, toNat_slotMask, Nat.and_two_pow_sub_one_eq_mod]

theorem shardLimit_mul (layout : IdLayout) : layout.shardLimit * 2 ^ layout.slotBits = 2 ^ 64 := by
  have := layout.slotBits_lt
  rw [shardLimit, ← Nat.pow_add]
  congr 1
  omega

/-- A packed word as a number, when the shard fits its field; of the slot only the bits that fit
    are kept. -/
theorem toNat_pack (hs : shard < layout.shardLimit) :
    (layout.pack shard slot).toNat =
      shard * 2 ^ layout.slotBits + slot % 2 ^ layout.slotBits := by
  have limit := layout.shardLimit_mul
  have high : shard * 2 ^ layout.slotBits < 2 ^ 64 := by
    rw [← limit]
    exact Nat.mul_lt_mul_of_pos_right hs (Nat.two_pow_pos _)
  have fits : shard < 2 ^ 64 :=
    Nat.lt_of_le_of_lt (Nat.le_mul_of_pos_right _ (Nat.two_pow_pos _)) high
  have divides : 2 ^ layout.slotBits ∣ 2 ^ 64 := Nat.pow_dvd_pow 2 (Nat.le_of_lt layout.slotBits_lt)
  have low : (UInt64.ofNat slot &&& layout.slotMask).toNat = slot % 2 ^ layout.slotBits := by
    rw [UInt64.toNat_and, toNat_slotMask, Nat.and_two_pow_sub_one_eq_mod, UInt64.toNat_ofNat',
      Nat.mod_mod_of_dvd _ divides]
  rw [pack, UInt64.toNat_or, low, UInt64.toNat_shiftLeft, toNat_shift_mod, UInt64.toNat_ofNat',
    Nat.mod_eq_of_lt fits, Nat.shiftLeft_eq, Nat.mod_eq_of_lt high, ← Nat.shiftLeft_eq,
    ← Nat.shiftLeft_add_eq_or_of_lt (Nat.mod_lt _ (Nat.two_pow_pos _))]

/-- A shard that fits its field is read back from the id. -/
theorem shardOf_pack (hs : shard < layout.shardLimit) :
    layout.shardOf (layout.pack shard slot) = shard := by
  rw [shardOf_eq, toNat_pack hs, Nat.mul_comm, Nat.mul_add_div (Nat.two_pow_pos _),
    Nat.div_eq_of_lt (Nat.mod_lt _ (Nat.two_pow_pos _)), Nat.add_zero]

/-- A slot that fits its field is read back from the id. -/
theorem slotOf_pack (hs : shard < layout.shardLimit) (hl : slot ≤ layout.maxSlot) :
    layout.slotOf (layout.pack shard slot) = slot := by
  rw [slotOf_eq, toNat_pack hs, Nat.mul_comm, Nat.mul_add_mod, Nat.mod_mod,
    Nat.mod_eq_of_lt (lt_of_le_maxSlot hl)]

/-- The shard field of any word holds a shard that fits. -/
theorem shardOf_lt_shardLimit (layout : IdLayout) (id : GlobalId) :
    layout.shardOf id < layout.shardLimit := by
  rw [shardOf_eq, Nat.div_lt_iff_lt_mul (Nat.two_pow_pos _), shardLimit_mul]
  exact id.toNat_lt

/-- Every word is packed from its own fields. -/
theorem pack_shardOf_slotOf (layout : IdLayout) (id : GlobalId) :
    layout.pack (layout.shardOf id) (layout.slotOf id) = id := by
  apply UInt64.toNat_inj.mp
  rw [toNat_pack (layout.shardOf_lt_shardLimit id), shardOf_eq, slotOf_eq, Nat.mod_mod,
    Nat.div_add_mod']

/-- The shard field has room for all shards. -/
theorem le_two_pow_shardBits (shards : Nat) : shards ≤ 2 ^ shardBits shards := by
  unfold shardBits
  split
  · next h => simpa using h
  · have := Nat.lt_log2_self (n := shards - 1)
    omega

/-- The layout for a number of shards has room for each of them in its shard field, unless there are
    more than words. -/
theorem le_shardLimit_ofShards {shards : Nat} (h : shards ≤ 2 ^ 64) :
    shards ≤ (ofShards shards).shardLimit := by
  have le := le_two_pow_shardBits shards
  by_cases hb : shardBits shards ≤ 64
  · have bits : 64 - (64 - shardBits shards) = shardBits shards := by omega
    rwa [shardLimit, ofShards, bits]
  · have bits : 64 - (64 - shardBits shards) = 64 := by omega
    rwa [shardLimit, ofShards, bits]

end IdLayout

end ShardCut
