import Mathlib.Data.Prod.Lex
import Mathlib.Order.Bounds.Basic
import ShardCut.Proofs.GlobalId

/-!
Global ids as a code. The layout for a number of shards can be computed in words, from the leading
zeros of the greatest shard, and no step of this leaves the range of the words. With this layout the
fields of an id can be read back, every word is the id of its own fields, and ids are ordered by
shard and then by slot.

Main definitions: `wordsFor?`, `Addresses`. Main results: `isLeast_shardBits`, `wordsFor?_eq`,
`ofShards_lossless`.
-/

namespace ShardCut

/-! ### Words with checks -/

/-- The difference of two words, if it is not negative. -/
def checkedSub? (a b : UInt64) : Option UInt64 := if b ≤ a then some (a - b) else none

/-- A word shifted up, if the distance is less than its width. -/
def checkedShiftLeft? (w distance : UInt64) : Option UInt64 :=
  if distance < 64 then some (w <<< distance) else none

theorem checkedSub?_eq_some {a b : UInt64} (h : b ≤ a) : checkedSub? a b = some (a - b) := if_pos h

theorem checkedShiftLeft?_eq_some {w distance : UInt64} (h : distance < 64) :
    checkedShiftLeft? w distance = some (w <<< distance) := if_pos h

/-- The number of zeros in front of the highest one of a word. -/
def leadingZeros (w : UInt64) : UInt64 := .ofBitVec w.toBitVec.clz

/-- One less, but not below zero. -/
def predecessor (w : UInt64) : UInt64 := if w = 0 then 0 else w - 1

theorem toNat_predecessor (w : UInt64) : (predecessor w).toNat = w.toNat - 1 := by
  unfold predecessor
  split
  · next zero => rw [zero]; rfl
  · next nonzero =>
    have one_le : (1 : UInt64) ≤ w := by
      rw [UInt64.le_iff_toNat_le, UInt64.toNat_one]
      exact Nat.one_le_iff_ne_zero.mpr fun h => nonzero (UInt64.toNat_inj.mp h)
    rw [UInt64.toNat_sub_of_le _ _ one_le, UInt64.toNat_one]

theorem leadingZeros_le (w : UInt64) : leadingZeros w ≤ 64 := BitVec.clz_le

/-- What is left of a word without its leading zeros is as long as its value needs. -/
theorem isLeast_usedBits (w : UInt64) :
    IsLeast {b | w.toNat < 2 ^ b} (64 - (leadingZeros w).toNat) := by
  constructor
  · exact BitVec.toNat_lt_two_pow_sub_clz
  · intro b fits
    by_cases zero : w = 0
    · subst zero
      exact Nat.zero_le b
    · have nonzero : w.toBitVec ≠ 0#64 := fun h => zero (UInt64.toBitVec_inj.mp h)
      have highest : 2 ^ (63 - (leadingZeros w).toNat) ≤ w.toNat :=
        BitVec.two_pow_sub_clz_le_toNat_of_ne_zero (by decide) nonzero
      have := (Nat.pow_lt_pow_iff_right (by decide)).mp (Nat.lt_of_le_of_lt highest fits)
      omega

namespace IdLayout

variable {layout : IdLayout} {shard slot shard' slot' : Nat}

/-! ### The layout in words -/

/-- The shift and the slot mask for a number of shards, computed in words; nothing, if a step leaves
    their range. -/
def wordsFor? (shards : UInt64) : Option (UInt64 × UInt64) := do
  let used ← checkedSub? 64 (leadingZeros (predecessor shards))
  let shift ← checkedSub? 64 (max used 1)
  let bit ← checkedShiftLeft? 1 shift
  let mask ← checkedSub? bit 1
  return (shift, mask)

/-- The shard field has the least number of bits, but at least one, in which the shards can be told
    apart. -/
theorem isLeast_shardBits (shards : Nat) :
    IsLeast {b | 1 ≤ b ∧ shards ≤ 2 ^ b} (shardBits shards) := by
  refine ⟨⟨one_le_shardBits shards, le_two_pow_shardBits shards⟩, ?_⟩
  rintro b ⟨some_bit, room⟩
  unfold shardBits
  split
  · exact some_bit
  · have shorter : Nat.log2 (shards - 1) < b := (Nat.log2_lt (by omega)).mpr (by omega)
    exact shorter

/-- As the leading zeros tell, these are the bits that the greatest shard uses, or one bit. -/
theorem shardBits_eq (shards : UInt64) :
    shardBits shards.toNat = max (64 - (leadingZeros (predecessor shards)).toNat) 1 := by
  apply (isLeast_shardBits shards.toNat).unique
  obtain ⟨fits, least⟩ := isLeast_usedBits (predecessor shards)
  rw [Set.mem_ofPred_eq, toNat_predecessor] at fits
  refine ⟨⟨Nat.le_max_right _ _, ?_⟩, ?_⟩
  · have grows := Nat.pow_le_pow_right (n := 2) (by decide)
      (Nat.le_max_left (64 - (leadingZeros (predecessor shards)).toNat) 1)
    omega
  · rintro b ⟨some_bit, room⟩
    refine Nat.max_le.mpr ⟨least ?_, some_bit⟩
    have := Nat.two_pow_pos b
    rw [Set.mem_ofPred_eq, toNat_predecessor]
    omega

/-- The shard field is no wider than a word. -/
theorem shardBits_le (shards : UInt64) : shardBits shards.toNat ≤ 64 :=
  (isLeast_shardBits shards.toNat).2 ⟨by decide, Nat.le_of_lt shards.toNat_lt⟩

/-- Every step of the computation stays within the range of words, and what comes out are the shift
    and the slot mask of the layout. -/
theorem wordsFor?_eq (shards : UInt64) :
    wordsFor? shards =
      some ((ofShards shards.toNat).shift, (ofShards shards.toNat).slotMask) := by
  let layout := ofShards shards.toNat
  have bitsEq :
      (max (64 - leadingZeros (predecessor shards)) 1).toNat = shardBits shards.toNat := by
    rw [shardBits_eq, UInt64.toNat_max, UInt64.toNat_sub_of_le _ _ (leadingZeros_le _)]
    rfl
  rw [wordsFor?, checkedSub?_eq_some (leadingZeros_le _), Option.bind_eq_bind, Option.bind_some]
  -- From here on only the number of bits counts, and not how it was found.
  generalize max (64 - leadingZeros (predecessor shards)) 1 = bits at bitsEq ⊢
  have bits_le : bits ≤ 64 := by
    rw [UInt64.le_iff_toNat_le, bitsEq]
    exact shardBits_le shards
  have shiftEq : 64 - bits = layout.shift := by
    apply UInt64.toNat_inj.mp
    rw [UInt64.toNat_sub_of_le _ _ bits_le, bitsEq, toNat_shift]
    rfl
  have shift_lt : layout.shift < 64 := by
    rw [UInt64.lt_iff_toNat_lt, toNat_shift]
    exact layout.slotBits_lt
  rw [checkedSub?_eq_some bits_le, shiftEq, Option.bind_some, checkedShiftLeft?_eq_some shift_lt,
    Option.bind_some, checkedSub?_eq_some layout.one_le_slotBound]
  rfl

/-! ### The order of ids -/

/-- Ids are ordered by their shards, and within a shard by their slots. -/
theorem pack_lt_pack_iff (hs : shard < layout.shardLimit) (hl : slot ≤ layout.maxSlot)
    (hs' : shard' < layout.shardLimit) (hl' : slot' ≤ layout.maxSlot) :
    layout.pack shard slot < layout.pack shard' slot' ↔
      toLex (shard, slot) < toLex (shard', slot') := by
  have low := lt_of_le_maxSlot hl
  have low' := lt_of_le_maxSlot hl'
  rw [UInt64.lt_iff_toNat_lt, toNat_pack hs, toNat_pack hs', Nat.mod_eq_of_lt low,
    Nat.mod_eq_of_lt low', Prod.Lex.toLex_lt_toLex]
  -- Both slots are below `size`, the distance between two shards, so no slot makes up for a shard.
  generalize 2 ^ layout.slotBits = size at low low'
  rcases Nat.lt_trichotomy shard shard' with less | rfl | more
  · have next := Nat.mul_le_mul_right size (Nat.succ_le_of_lt less)
    rw [Nat.succ_mul] at next
    omega
  · omega
  · have next := Nat.mul_le_mul_right size (Nat.succ_le_of_lt more)
    rw [Nat.succ_mul] at next
    omega

/-! ### The code of a number of shards -/

/-- A shard of so many, and a slot that its field can hold. Where there are no shards, there is room
    for one all the same. -/
structure Addresses (shards : UInt64) (shard slot : Nat) : Prop where
  shard_lt : shard < max shards.toNat 1
  slot_le : slot ≤ (ofShards shards.toNat).maxSlot

theorem Addresses.fits {shards : UInt64} (h : Addresses shards shard slot) :
    shard < (ofShards shards.toNat).shardLimit := by
  have room := le_shardLimit_ofShards (Nat.le_of_lt shards.toNat_lt)
  have positive : 0 < (ofShards shards.toNat).shardLimit := Nat.two_pow_pos _
  have := h.shard_lt
  omega

/-- For every number of shards that a word can hold, the layout is computed without leaving the
    range of words, and its shard field is as short as it can be. What is packed can be read back,
    every word is packed from its own fields, and packing keeps the order of shards and slots. -/
theorem ofShards_lossless (shards : UInt64) :
    wordsFor? shards =
      some ((ofShards shards.toNat).shift, (ofShards shards.toNat).slotMask) ∧
    let layout := ofShards shards.toNat
    IsLeast {b | 1 ≤ b ∧ shards.toNat ≤ 2 ^ b} (64 - layout.slotBits) ∧
    (∀ shard slot, Addresses shards shard slot →
      layout.shardOf (layout.pack shard slot) = shard ∧
        layout.slotOf (layout.pack shard slot) = slot) ∧
    (∀ id : GlobalId, layout.pack (layout.shardOf id) (layout.slotOf id) = id) ∧
    ∀ shard slot shard' slot', Addresses shards shard slot → Addresses shards shard' slot' →
      (layout.pack shard slot < layout.pack shard' slot' ↔
        toLex (shard, slot) < toLex (shard', slot')) := by
  have width : 64 - (ofShards shards.toNat).slotBits = shardBits shards.toNat :=
    Nat.sub_sub_self (shardBits_le shards)
  refine ⟨wordsFor?_eq shards, ?_, fun shard slot h => ?_, pack_shardOf_slotOf _,
    fun shard slot shard' slot' h h' => ?_⟩
  · rw [width]
    exact isLeast_shardBits shards.toNat
  · exact ⟨shardOf_pack h.fits, slotOf_pack h.fits h.slot_le⟩
  · exact pack_lt_pack_iff h.fits h.slot_le h'.fits h'.slot_le

/-- With more than half as many shards as there are words, the id of a vertex is its shard, and the
    only slot of a shard is the first. -/
theorem ofShards_lossless_all_bits :
    let shards : UInt64 := 9223372036854775809
    let layout := ofShards shards.toNat
    Addresses shards 5 0 ∧ Addresses shards 9223372036854775808 0 ∧
      wordsFor? shards = some (0, 0) ∧
      layout.shardOf (layout.pack 9223372036854775808 0) = 9223372036854775808 ∧
      layout.slotOf (layout.pack 9223372036854775808 0) = 0 ∧
      layout.pack 5 0 < layout.pack 9223372036854775808 0 := by
  intro shards layout
  have small : Addresses shards 5 0 := ⟨by decide, by decide⟩
  have large : Addresses shards 9223372036854775808 0 := ⟨by decide, by decide⟩
  obtain ⟨words, -, readsBack, -, ordered⟩ := ofShards_lossless shards
  obtain ⟨shardBack, slotBack⟩ := readsBack _ _ large
  refine ⟨small, large, words.trans (by decide), shardBack, slotBack, ?_⟩
  apply (ordered _ _ _ _ small large).mpr
  exact Prod.Lex.toLex_lt_toLex.mpr (.inl (by decide))

end IdLayout

end ShardCut
