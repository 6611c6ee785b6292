import ShardCut.Name

/-!
Directed multigraphs as they are listed: vertices and edges by name, in order and with repetitions.
An endpoint of an edge is a vertex whether it is listed or not.

Main definitions: `Digraph`, `Digraph.mentions`.
-/

namespace ShardCut

/-- A listed directed multigraph. -/
structure Digraph where
  vertices : List VertexName
  edges : List (VertexName × VertexName)
deriving DecidableEq, Repr

namespace Digraph

def empty : Digraph := ⟨[], []⟩

/-- Every mention of a vertex, in order: the listed vertices first, and then the two ends of each
    edge. -/
def mentions (g : Digraph) : List VertexName :=
  g.vertices ++ g.edges.flatMap fun (source, target) => [source, target]

end Digraph

end ShardCut
