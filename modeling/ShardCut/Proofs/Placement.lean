import Mathlib.Data.List.Induction
import ShardCut.Placement

/-!
Who owns a name. Where there are shards every name has an owner among them: the shard of its entry
in the table, if that one exists, and otherwise the shard of its hash. In a placement that was
listed, the entry of a name is the last one that was listed for it.

Main definitions: `ownerOf`, `listedOwner`. Main results: `exists_owner`, `ownerOf_listed`.
-/

namespace ShardCut

namespace Placement

variable {p : Placement} {shards : Nat}

/-- The shard that owns a name with this entry in the table: that of the entry, if such a shard
    exists, and otherwise that of the hash. -/
def ownerByEntry (shards : Nat) (assigned? : Option Nat) (name : VertexName) : Nat :=
  match assigned? with
  | some shard => if shard < shards then shard else (hashName name).toNat % shards
  | none => (hashName name).toNat % shards

/-- With one shard at least, a name is owned by its entry, or by its hash. -/
theorem owner_eq (positive : p.shardNum ≠ 0) (name : VertexName) :
    p.owner name = .ok (ownerByEntry p.shardNum p.assigned[name]? name) := by
  have hashed : p.hashedShard name = .ok ((hashName name).toNat % p.shardNum) := by
    rw [hashedShard, if_neg positive]
  unfold owner ownerByEntry
  rw [hashed]
  cases p.assigned[name]? with
  | none => rfl
  | some shard => by_cases hs : shard < p.shardNum <;> simp [hs]

/-- The shard that owns a name, where there are shards. -/
def ownerOf (p : Placement) (name : VertexName) : Nat :=
  ownerByEntry p.shardNum p.assigned[name]? name

theorem owner_eq_ownerOf (positive : p.shardNum ≠ 0) :
    p.owner = fun name => .ok (p.ownerOf name) :=
  funext fun name => owner_eq positive name

/-- The owner is a shard that exists, whatever the entry says. -/
theorem ownerByEntry_lt (positive : shards ≠ 0) (assigned? : Option Nat) (name : VertexName) :
    ownerByEntry shards assigned? name < shards := by
  have hashed : (hashName name).toNat % shards < shards :=
    Nat.mod_lt _ (Nat.pos_of_ne_zero positive)
  unfold ownerByEntry
  cases assigned? with
  | none => exact hashed
  | some shard => by_cases hs : shard < shards <;> simp [hs, hashed]

/-- With at least one shard every name has an owner among the shards. -/
theorem exists_owner (positive : p.shardNum ≠ 0) (name : VertexName) :
    ∃ shard, p.owner name = .ok shard ∧ shard < p.shardNum :=
  ⟨_, owner_eq positive name, ownerByEntry_lt positive _ name⟩

/-! ### Listed placements -/

/-- The shard that the last of the entries for a name says. -/
def lastListed? (entries : List (VertexName × Nat)) (name : VertexName) : Option Nat :=
  (entries.filter fun entry => entry.1 = name).getLast?.map Prod.snd

/-- The shard that owns a name when these entries are listed. -/
def listedOwner (shards : Nat) (entries : List (VertexName × Nat)) (name : VertexName) : Nat :=
  ownerByEntry shards (lastListed? entries name) name

@[simp] theorem shardNum_listed (shards : Nat) (entries : List (VertexName × Nat)) :
    (listed shards entries).shardNum = shards := rfl

/-- Without entries every name is hashed. -/
theorem listed_nil (shards : Nat) : listed shards [] = hashed shards := rfl

/-- The table of a listed placement holds the last entry for every name. -/
theorem assigned_listed (shards : Nat) (entries : List (VertexName × Nat)) (name : VertexName) :
    (listed shards entries).assigned[name]? = lastListed? entries name := by
  induction entries using List.reverseRecOn with
  | nil => exact Std.HashMap.getElem?_empty
  | append_singleton entries entry ih =>
    have inserted : (listed shards (entries ++ [entry])).assigned =
        (listed shards entries).assigned.insert entry.1 entry.2 := by
      rw [listed, List.foldl_append]
      rfl
    rw [inserted, Std.HashMap.getElem?_insert, ih, lastListed?, lastListed?]
    by_cases h : entry.1 = name <;> simp [h]

theorem ownerOf_listed (shards : Nat) (entries : List (VertexName × Nat)) :
    (listed shards entries).ownerOf = listedOwner shards entries := by
  funext name
  rw [ownerOf, assigned_listed]
  rfl

end Placement

end ShardCut
