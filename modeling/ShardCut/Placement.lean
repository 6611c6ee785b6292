import ShardCut.Failure
import ShardCut.Placement.Hash
import Std.Data.HashMap

/-!
Placements: which shard owns which vertex. A placement assigns some names by a table and all others
by their hash. The table may mention shards that do not exist; such an entry counts as absent.

Main definitions: `Placement`, `Placement.hashed`, `Placement.listed`, `Placement.owner`.
-/

namespace ShardCut

/-- A number of shards and a table of assigned names. -/
structure Placement where
  shardNum : Nat
  assigned : Std.HashMap VertexName Nat

namespace Placement

/-- The placement that hashes every name. -/
def hashed (shards : Nat) : Placement := ⟨shards, ∅⟩

/-- The placement that assigns the listed names. Of two entries for a name the later one counts. -/
def listed (shards : Nat) (entries : List (VertexName × Nat)) : Placement :=
  ⟨shards, entries.foldl (fun table (name, shard) => table.insert name shard) ∅⟩

/-- The shard that the hash of a name leads to. There is none if there are no shards. -/
def hashedShard (p : Placement) (name : VertexName) : Except Failure Nat :=
  if p.shardNum = 0 then .error (.abort .remainderByZero)
  else .ok ((hashName name).toNat % p.shardNum)

/-- The shard that owns a name: the assigned one if it exists, and otherwise the hashed one. -/
def owner (p : Placement) (name : VertexName) : Except Failure Nat :=
  match p.assigned[name]? with
  | some shard => if shard < p.shardNum then .ok shard else p.hashedShard name
  | none => p.hashedShard name

end Placement

end ShardCut
