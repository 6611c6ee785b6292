import ShardCut.Boundary.Encode
import ShardCut.Boundary.Merge
import ShardCut.Boundary.Query
import ShardCut.Boundary.Scan
import ShardCut.Workers

/-!
The edge boundary of a query. Every worker resolves the query, scans its shard and contributes what
it found; the coordinator encodes the union. `ShardedGraph.edgeBoundary` runs this on a graph and
gives back the matrix of the coordinator.

Rows are ordered by the ids of source and target. Since the ids depend on how the graph was split,
so does the order of the rows; the set of the rows does not.

Main definitions: `contribution`, `worker`, `app`, `ShardedGraph.edgeBoundary`,
`ShardedGraph.Answers`. Main results: `ShardedGraph.answers_edgeBoundary`.
-/

namespace ShardCut

namespace Boundary

/-- The edges that a worker contributes: those on the boundary of the query that it sees. -/
def contribution (query : Query) (shard : Shard) : Except Failure IdPairSet := do
  let (primary, secondary) ← query.resolve shard
  scan shard primary secondary

/-- Encodes the merged edges, which only the coordinator has. -/
def encodeMerged (shard : Shard) : Option IdPairSet → Except Failure (Option PairMatrix)
  | none => .ok none
  | some edges => (encode shard edges).map some

variable {M : Type}

/-- What a worker does, up to the merged set and its encoding. -/
def worker (codec : Codec M IdPairs) (query : Query) (coordinator : Nat) {n : Nat} (self : Fin n)
    (shard : Shard) : Program n M (Option PairMatrix) := do
  let own ← Program.ofExcept (contribution query shard)
  let merged? ← merge codec coordinator self own
  Program.ofExcept (encodeMerged shard merged?)

/-- The app of a query: all work happens in the first phase. -/
def app (codec : Codec M IdPairs) (query : Query) (coordinator : Nat) :
    App M (Option PairMatrix) where
  evaluate self shard := worker codec query coordinator self shard

/-- The matrix among the outputs of the workers, which the coordinator has to have returned. -/
def resultOf (coordinator : Nat) (outputs : List (Option PairMatrix)) :
    Except Failure PairMatrix :=
  match outputs[coordinator]? with
  | some (some matrix) => .ok matrix
  | _ => .error (.communication coordinator .noResult)

end Boundary

namespace ShardedGraph

variable {M : Type}

/-- The boundary edges of a query, as a matrix. The coordinator has to be one of the workers. -/
def edgeBoundary (graph : ShardedGraph) (codec : Codec M IdPairs)
    (query : Boundary.Query) (coordinator : Nat) : Except Failure PairMatrix := do
  if graph.shardNum ≤ coordinator then
    throw (.invalidSetting (.coordinatorOutOfRange coordinator graph.shardNum))
  let outputs ← graph.runApp (Boundary.app codec query coordinator)
  Boundary.resultOf coordinator outputs

/-- What the boundary edges of a query come out as, in any interleaving of the workers. -/
inductive Answers (graph : ShardedGraph) (codec : Codec M IdPairs)
    (query : Boundary.Query) (coordinator : Nat) : Except Failure PairMatrix → Prop where
  | refused (h : graph.shardNum ≤ coordinator) :
      Answers graph codec query coordinator
        (.error (.invalidSetting (.coordinatorOutOfRange coordinator graph.shardNum)))
  | ran {outcome : Except Failure (List (Option PairMatrix))} (h : coordinator < graph.shardNum)
      (run : graph.Outcome (Boundary.app codec query coordinator) outcome) :
      Answers graph codec query coordinator (outcome.bind (Boundary.resultOf coordinator))

/-- What is computed is one of the answers, that of one interleaving. -/
theorem answers_edgeBoundary (graph : ShardedGraph) (codec : Codec M IdPairs)
    (query : Boundary.Query) (coordinator : Nat) :
    graph.Answers codec query coordinator (graph.edgeBoundary codec query coordinator) := by
  unfold edgeBoundary
  by_cases h : graph.shardNum ≤ coordinator
  · rw [if_pos h]
    exact .refused h
  · rw [if_neg h]
    exact .ran (Nat.lt_of_not_le h) (graph.outcome_runApp _)

/-- The boundary edges of a query, as a set of pairs of names. -/
def edgeBoundarySet (graph : ShardedGraph) (codec : Codec M IdPairs)
    (query : Boundary.Query) (coordinator : Nat) : Except Failure NamePairSet := do
  let matrix ← graph.edgeBoundary codec query coordinator
  return Std.TreeSet.ofList matrix.rows comparePairs

end ShardedGraph

end ShardCut
