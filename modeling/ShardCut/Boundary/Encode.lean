import ShardCut.IdSet
import ShardCut.PairMatrix.Basic
import ShardCut.Shard

/-!
Encoding: a set of edges between ids becomes a matrix of names, row by row in the order of the set.
An id without a name is a failure; of several such ids the one that is read first decides, the
source of an edge before its target.

Main definitions: `rowOf`, `encode`.
-/

namespace ShardCut.Boundary

def nameOf (shard : Shard) (id : GlobalId) : Except Failure VertexName :=
  match shard.nameOfId? id with
  | some name => .ok name
  | none => .error (.unknownId id)

def rowOf (shard : Shard) (edge : GlobalId × GlobalId) :
    Except Failure (VertexName × VertexName) := do
  let source ← nameOf shard edge.1
  let target ← nameOf shard edge.2
  return (source, target)

/-- The matrix of a set of edges. -/
def encode (shard : Shard) (edges : IdPairSet) : Except Failure PairMatrix := do
  let rows ← edges.toList.mapM (rowOf shard)
  return .ofRows rows

end ShardCut.Boundary
