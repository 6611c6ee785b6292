import ShardCut.IdSet
import ShardCut.Shard

/-!
The part of a boundary that one shard sees: the edges that start at an inner vertex of the shard,
inside the first set, and cross its boundary. A vertex of the first set that another shard owns is
left to that shard.

Main definitions: `Crosses`, `scan`.
-/

namespace ShardCut.Boundary

/-- An edge out of the first set crosses the boundary when its target lies in the second set, or, if
    that is empty, outside of the first one. -/
def Crosses (primary secondary : IdSet) (target : GlobalId) : Prop :=
  if secondary.isEmpty then target ∉ primary else target ∈ secondary

instance (primary secondary : IdSet) (target : GlobalId) :
    Decidable (Crosses primary secondary target) := by
  unfold Crosses
  infer_instance

/-- The boundary edges from one vertex of the first set. -/
def scanFrom (shard : Shard) (primary secondary : IdSet) (source : GlobalId) :
    Except Failure (List (GlobalId × GlobalId)) :=
  match shard.innerHandle? source with
  | none => .ok []
  | some handle => do
    let targets ← (shard.successors handle).mapM shard.idOfHandle
    return (targets.filter fun target => Crosses primary secondary target).map (source, ·)

/-- The boundary edges of a shard. -/
def scan (shard : Shard) (primary secondary : IdSet) : Except Failure IdPairSet := do
  let found ← primary.toList.mapM (scanFrom shard primary secondary)
  return .ofList found.flatten

end ShardCut.Boundary
