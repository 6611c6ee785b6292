import ShardCut.Digraph.Reader
import ShardCut.Placement
import ShardCut.Shard

/-!
A graph split into shards. Every edge is kept by the shard of its source and by the shard of its
target, and all shards share one registry.

Main definitions: `ShardedGraph`, `ShardedGraph.build`, `ShardedGraph.ofFile`.
-/

namespace ShardCut

/-- The edges between registered names, by id. -/
def Registry.edgesById (registry : Registry) (edges : List (VertexName × VertexName)) :
    List (GlobalId × GlobalId) :=
  edges.filterMap fun (source, target) => do
    return (← registry.id? source, ← registry.id? target)

/-- The shards of a graph, by index. -/
structure ShardedGraph where
  registry : Registry
  shards : List Shard
  edgeNum : Nat

namespace ShardedGraph

/-- Splits a graph as the placement says. Vertices are registered in the order of their first
    mention. A graph cannot be split over no shards, and a shard holds at most as many vertices as
    the greatest slot. -/
def build (placement : Placement) (graph : Digraph) : Except Failure ShardedGraph := do
  let shardNum := placement.shardNum
  if shardNum = 0 then throw (.invalidSetting .nothingToSplitOver)
  let registry ← (← Registry.create shardNum).registerAll placement.owner graph.mentions
  let maxSlot := registry.layout.maxSlot
  if (List.range shardNum).any fun shard => maxSlot < registry.count shard then
    throw (.invalidSetting (.shardTooLarge maxSlot))
  let edges := registry.edgesById graph.edges
  let shards ← (List.range shardNum).mapM fun index => Shard.build index registry edges
  return ⟨registry, shards, edges.length⟩

def shardNum (graph : ShardedGraph) : Nat := graph.shards.length

def vertexNum (graph : ShardedGraph) : Nat := graph.registry.total

def shard? (graph : ShardedGraph) (index : Nat) : Option Shard := graph.shards[index]?

/-- Reads a graph file and splits it by hash. -/
def ofFile (bytes : List UInt8) (shards : Nat) : Except Failure ShardedGraph := do
  build (.hashed shards) (← Digraph.read bytes)

end ShardedGraph

end ShardCut
