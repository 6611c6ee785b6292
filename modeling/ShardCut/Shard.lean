import ShardCut.Buckets
import ShardCut.IdSet
import ShardCut.Registry

/-!
One shard of a graph. A shard owns some vertices, its *inner* ones, and knows for each of them the
neighbours along outgoing and incoming edges. A neighbour that another shard owns is an *outer*
vertex of this one.

Inside the shard a vertex is called by a handle, a small number: the inner vertices come first, by
slot, and then the outer ones, by ascending id. Handles and ids translate into each other.

Main definitions: `Shard`, `Shard.build`, `Shard.idOfHandle`, `Shard.handle?`, `Shard.successors`.
-/

namespace ShardCut

/-- A shard with its neighbour lists. -/
structure Shard where
  index : Nat
  registry : Registry
  innerNum : Nat
  outer : Array GlobalId
  outerHandles : Std.HashMap GlobalId Nat
  outgoing : Buckets Nat
  incoming : Buckets Nat

namespace Shard

/-- Whether a shard owns the vertex of an id, going by the shard field. -/
def Owns (layout : IdLayout) (index : Nat) (id : GlobalId) : Prop := layout.shardOf id = index

instance (layout : IdLayout) (index : Nat) (id : GlobalId) : Decidable (Owns layout index id) :=
  inferInstanceAs (Decidable (layout.shardOf id = index))

/-- The ends that lie elsewhere of the edges with exactly one end in the shard. -/
def outerEnds (layout : IdLayout) (index : Nat) (edges : List (GlobalId × GlobalId)) :
    List GlobalId :=
  edges.filterMap fun (source, target) =>
    if Owns layout index source then
      if Owns layout index target then none else some target
    else
      if Owns layout index target then some source else none

/-- The ids of the outer vertices, in ascending order. -/
def outerIds (layout : IdLayout) (index : Nat) (edges : List (GlobalId × GlobalId)) :
    Array GlobalId :=
  (IdSet.ofList (outerEnds layout index edges)).toArray

/-- The handle of every outer vertex: the inner handles come before them. -/
def handlesFrom (innerNum : Nat) (outer : List GlobalId) : Std.HashMap GlobalId Nat :=
  (outer.zipIdx innerNum).foldl (fun handles (id, handle) => handles.insert id handle) ∅

/-- The first place from `lo` on, and before `hi`, whose id is not below the given one, found by
    bisection; if there is none, it is `hi`. -/
def lowerBound (ids : Array GlobalId) (id : GlobalId) (lo hi : Nat) : Nat :=
  if lo < hi then
    let mid := lo + (hi - lo) / 2
    if ids.getD mid 0 < id then lowerBound ids id (mid + 1) hi else lowerBound ids id lo mid
  else lo
termination_by hi - lo

/-- The handle of an end of an edge. An outer vertex has the place of its id among the outer ids,
    after the inner handles; of an id that is not among them it would be the place where it
    belongs. -/
def handleIn (layout : IdLayout) (index innerNum : Nat) (outer : Array GlobalId) (id : GlobalId) :
    Nat :=
  if Owns layout index id then layout.slotOf id
  else innerNum + lowerBound outer id 0 outer.size

/-- The neighbours that the inner vertices have along the edges that start in the shard, by slot,
    and called by handle. -/
def neighbours (layout : IdLayout) (index : Nat) (handle : GlobalId → Nat)
    (edges : List (GlobalId × GlobalId)) : List (Nat × Nat) :=
  edges.filterMap fun (source, target) =>
    if Owns layout index source then some (layout.slotOf source, handle target) else none

/-- Builds a shard from the edges of the whole graph. Edges without an end in the shard are left
    out; neighbour lists keep the order of the edges, and repetitions. An edge of which the end in
    the shard is no inner vertex aborts. -/
def build (index : Nat) (registry : Registry) (edges : List (GlobalId × GlobalId)) :
    Except Failure Shard :=
  let layout := registry.layout
  let innerNum := registry.count index
  let outer := outerIds layout index edges
  let handle := handleIn layout index innerNum outer
  let out := neighbours layout index handle edges
  let into := neighbours layout index handle (edges.map Prod.swap)
  match Buckets.ofPairs? innerNum out, Buckets.ofPairs? innerNum into with
  | some outgoing, some incoming =>
    .ok ⟨index, registry, innerNum, outer, handlesFrom innerNum outer.toList, outgoing, incoming⟩
  | _, _ => .error (.abort .indexOutOfRange)

def outerNum (shard : Shard) : Nat := shard.outer.size

/-- The number of edges that start in the shard. -/
def edgeNum (shard : Shard) : Nat := shard.outgoing.items.size

/-- A handle calls an inner vertex when it is below their number. -/
def IsInner (shard : Shard) (handle : Nat) : Prop := handle < shard.innerNum

instance (shard : Shard) (handle : Nat) : Decidable (shard.IsInner handle) :=
  inferInstanceAs (Decidable (handle < shard.innerNum))

def idOfName? (shard : Shard) (name : VertexName) : Option GlobalId := shard.registry.id? name

def nameOfId? (shard : Shard) (id : GlobalId) : Option VertexName := shard.registry.name? id

/-- The id of a handle. A handle that calls no vertex of the shard aborts. -/
def idOfHandle (shard : Shard) (handle : Nat) : Except Failure GlobalId :=
  if shard.IsInner handle then .ok (shard.registry.layout.pack shard.index handle)
  else match shard.outer[handle - shard.innerNum]? with
    | some id => .ok id
    | none => .error (.abort .indexOutOfRange)

/-- The handle of an id whose vertex the shard owns. -/
def innerHandle? (shard : Shard) (id : GlobalId) : Option Nat :=
  let layout := shard.registry.layout
  if Owns layout shard.index id ∧ shard.IsInner (layout.slotOf id) then some (layout.slotOf id)
  else none

/-- The handle of an id whose vertex is an inner or outer one of the shard. -/
def handle? (shard : Shard) (id : GlobalId) : Option Nat :=
  (shard.innerHandle? id).or shard.outerHandles[id]?

/-- The handles along outgoing edges, in edge order; only inner vertices have any. -/
def successors (shard : Shard) (handle : Nat) : List Nat := shard.outgoing.bucket handle

/-- The handles along incoming edges, in edge order; only inner vertices have any. -/
def predecessors (shard : Shard) (handle : Nat) : List Nat := shard.incoming.bucket handle

def nameOfHandle (shard : Shard) (handle : Nat) : Except Failure (Option VertexName) :=
  (shard.idOfHandle handle).map shard.nameOfId?

end Shard

end ShardCut
