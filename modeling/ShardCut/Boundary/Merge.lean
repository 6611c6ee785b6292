import ShardCut.IdSet
import ShardCut.Mesh.Collective

/-!
Merging. Every worker contributes the boundary edges of its shard, and the coordinator returns all
of them as one set. All workers take part, also if none of them is the coordinator. A set travels as
the list of its edges, in whatever way the codec writes it.

Main definitions: `unite`, `merge`.
-/

namespace ShardCut.Boundary

/-- The edges of the coordinator's own set and of all others that were gathered, by worker. The
    gathered copy of its own set is left out. -/
def unite (coordinator : Nat) (own : IdPairSet) (gathered : List IdPairs) : IdPairSet :=
  gathered.zipIdx.foldl (fun merged (edges, worker) =>
    if worker = coordinator then merged else merged.insertMany edges) own

/-- What a worker makes of what was gathered: the coordinator has the union, the others nothing. -/
def mergedAt (coordinator self : Nat) (own : IdPairSet) (gathered : List IdPairs) :
    Option IdPairSet :=
  if self = coordinator then some (unite coordinator own gathered) else none

/-- Gathers the edges of all workers. The coordinator returns their union, and the others return
    nothing. -/
def merge {n : Nat} {M : Type} (codec : Codec M IdPairs) (coordinator : Nat) (self : Fin n)
    (own : IdPairSet) : Program n M (Option IdPairSet) := do
  let gathered ← Program.allGather codec self own.toList
  return mergedAt coordinator self own gathered

end ShardCut.Boundary
