import Mathlib.Algebra.BigOperators.Group.Finset.Piecewise
import ShardCut.Proofs.ShardedGraph.Ownership

/-!
Neighbours in a split graph. A vertex has one place, an inner handle on one shard, and there its
neighbours along outgoing edges are the targets of its edges, and those along incoming edges the
sources, in the order of the edges and with all repetitions. So an edge is found from both of its
ends, whichever shards they are on, and every edge is stored with just one source.

Main definitions: `Digraph.targetsOf`, `Digraph.sourcesOf`, `Shard.Hosts`. Main results:
`Splits.neighbours`, `Splits.sum_edgeNum`, `adjacency_of_build`.
-/

namespace ShardCut

namespace Digraph

/-- The targets of the edges of a vertex, in the order of the edges. -/
def targetsOf (g : Digraph) (name : VertexName) : List VertexName :=
  (g.edges.filter fun edge => edge.1 = name).map Prod.snd

/-- The sources of the edges into a vertex, in the order of the edges. -/
def sourcesOf (g : Digraph) (name : VertexName) : List VertexName :=
  (g.edges.filter fun edge => edge.2 = name).map Prod.fst

/-- An edge is among the targets of its source as often as it is listed. -/
theorem count_targetsOf (g : Digraph) (source target : VertexName) :
    (g.targetsOf source).count target = g.edges.count (source, target) := by
  rw [targetsOf, List.count_eq_countP, List.countP_map, List.countP_filter, List.count_eq_countP]
  apply List.countP_congr
  intro edge _
  simp [Prod.ext_iff, and_comm]

/-- An edge is among the sources of its target as often as it is listed. -/
theorem count_sourcesOf (g : Digraph) (source target : VertexName) :
    (g.sourcesOf target).count source = g.edges.count (source, target) := by
  rw [sourcesOf, List.count_eq_countP, List.countP_map, List.countP_filter, List.count_eq_countP]
  apply List.countP_congr
  intro edge _
  simp [Prod.ext_iff]

end Digraph

/-! ### Edges between ids -/

namespace Registry

variable {r : Registry} {name : VertexName} {id : GlobalId}
  {edges : List (VertexName × VertexName)}

/-- Both ends of every edge are registered. -/
def Knows (r : Registry) (edges : List (VertexName × VertexName)) : Prop :=
  ∀ edge ∈ edges, (r.id? edge.1).isSome ∧ (r.id? edge.2).isSome

theorem edgesById_cons {edge : VertexName × VertexName} {source target : GlobalId}
    (hs : r.id? edge.1 = some source) (ht : r.id? edge.2 = some target)
    (edges : List (VertexName × VertexName)) :
    r.edgesById (edge :: edges) = (source, target) :: r.edgesById edges := by
  simp [edgesById, hs, ht]

/-- The first of known edges has ids at both ends, and the others are known. -/
theorem Knows.uncons {edge : VertexName × VertexName} (known : r.Knows (edge :: edges)) :
    ∃ source target, r.id? edge.1 = some source ∧ r.id? edge.2 = some target ∧
      r.edgesById (edge :: edges) = (source, target) :: r.edgesById edges ∧ r.Knows edges := by
  obtain ⟨hs, ht⟩ := known edge (List.mem_cons_self ..)
  obtain ⟨source, hs⟩ := Option.isSome_iff_exists.mp hs
  obtain ⟨target, ht⟩ := Option.isSome_iff_exists.mp ht
  exact ⟨source, target, hs, ht, edgesById_cons hs ht edges,
    fun edge hedge => known edge (List.mem_cons_of_mem _ hedge)⟩

/-- No edge is lost when names become ids. -/
theorem length_edgesById (known : r.Knows edges) :
    (r.edgesById edges).length = edges.length := by
  induction edges with
  | nil => rfl
  | cons edge edges ih =>
    obtain ⟨source, target, -, -, split, known⟩ := known.uncons
    rw [split, List.length_cons, List.length_cons, ih known]

/-- The edges that start at an id lead to the ids of the names that the edges of its name lead to,
    in the same order. -/
theorem names_of_targets (coherent : r.Coherent) (room : r.Fits) (known : r.Knows edges)
    (hn : r.id? name = some id) :
    (((r.edgesById edges).filter fun edge => edge.1 = id).map Prod.snd).map r.name? =
      ((edges.filter fun edge => edge.1 = name).map Prod.snd).map some := by
  induction edges with
  | nil => rfl
  | cons edge edges ih =>
    obtain ⟨source, target, hs, ht, split, known⟩ := known.uncons
    have named : r.name? target = some edge.2 := (coherent.name?_eq_some_iff_id? room).mpr ht
    rw [split]
    by_cases same : edge.1 = name
    · have source_eq : source = id := Option.some.inj (hs.symm.trans (same ▸ hn))
      simp [same, source_eq, named, ih known]
    · have source_ne : source ≠ id := fun h => same (coherent.id?_inj room hs (h ▸ hn))
      simp [same, source_ne, ih known]

/-- To turn edges around and to name them by ids can be done in any order. -/
theorem edgesById_swap (r : Registry) (edges : List (VertexName × VertexName)) :
    r.edgesById (edges.map Prod.swap) = (r.edgesById edges).map Prod.swap := by
  rw [edgesById, edgesById, List.filterMap_map, List.map_filterMap]
  congr 1
  funext edge
  cases hs : r.id? edge.1 <;> cases ht : r.id? edge.2 <;> simp [hs, ht]

/-- The sources of the edges into a vertex, by id, are those by name. -/
theorem names_of_sources (coherent : r.Coherent) (room : r.Fits) (known : r.Knows edges)
    (hn : r.id? name = some id) :
    (((r.edgesById edges).filter fun edge => edge.2 = id).map Prod.fst).map r.name? =
      ((edges.filter fun edge => edge.2 = name).map Prod.fst).map some := by
  have turned : r.Knows (edges.map Prod.swap) := by
    intro edge hedge
    obtain ⟨edge', hedge', rfl⟩ := List.mem_map.mp hedge
    exact (known edge' hedge').symm
  rw [Shard.map_fst_filter_snd, Shard.map_fst_filter_snd, ← edgesById_swap]
  exact names_of_targets coherent room turned hn

end Registry

/-! ### Places -/

namespace Shard

variable {shard : Shard} {r : Registry} {index handle : Nat} {name : VertexName}
  {edges : List (GlobalId × GlobalId)}

/-- A vertex has its place on the shard under an inner handle. -/
def Hosts (shard : Shard) (handle : Nat) (name : VertexName) : Prop :=
  shard.IsInner handle ∧ shard.nameOfHandle handle = .ok (some name)

/-- The name of an inner handle is the one at this slot of the registry. -/
theorem Holds.nameOfHandle (h : shard.Holds r index edges) (coherent : r.Coherent) (room : r.Fits)
    (inner : shard.IsInner handle) :
    shard.nameOfHandle handle = .ok (r.membersOf index)[handle]? := by
  obtain ⟨name, hat⟩ := Registry.exists_at (h.isInner_iff.mp inner)
  rw [Shard.nameOfHandle, idOfHandle, if_pos inner, h.registry, h.index, Except.map, nameOfId?,
    h.registry, (coherent.name?_eq_some_iff_id? room).mpr (coherent.id?_of_at hat)]
  exact congrArg Except.ok hat.symm

/-- A shard hosts a vertex at the slot where its name stands. -/
theorem Holds.hosts_iff (h : shard.Holds r index edges) (coherent : r.Coherent) (room : r.Fits) :
    shard.Hosts handle name ↔ r.At index handle name := by
  constructor
  · intro given
    obtain ⟨inner, named⟩ := given
    rw [h.nameOfHandle coherent room inner] at named
    exact Except.ok.inj named
  · intro hat
    have inner : shard.IsInner handle := h.isInner_iff.mpr hat.slot_lt
    refine ⟨inner, ?_⟩
    rw [h.nameOfHandle coherent room inner]
    exact congrArg Except.ok hat

/-- Handles that translate into ids have the names of these ids. -/
theorem mapM_nameOfHandle {handles : List Nat} {ids : List GlobalId}
    (h : handles.mapM shard.idOfHandle = .ok ids) :
    handles.mapM shard.nameOfHandle = .ok (ids.map shard.nameOfId?) := by
  induction handles generalizing ids with
  | nil =>
    cases h
    rfl
  | cons handle handles ih =>
    rw [List.mapM_cons] at h ⊢
    cases hid : shard.idOfHandle handle with
    | error failure =>
      rw [hid] at h
      cases h
    | ok id =>
      cases rest : handles.mapM shard.idOfHandle with
      | error failure =>
        rw [hid, rest] at h
        cases h
      | ok ids' =>
        rw [hid, rest] at h
        cases h
        rw [ih rest, Shard.nameOfHandle, hid]
        rfl

end Shard

/-- Every value is counted at one index. -/
theorem sum_countP_eq_length {α : Type} {index : α → Nat} {n : Nat} {xs : List α}
    (h : ∀ x ∈ xs, index x < n) :
    ∑ i ∈ Finset.range n, (xs.countP fun x => index x = i) = xs.length := by
  induction xs with
  | nil => simp
  | cons x xs ih =>
    have inside : index x ∈ Finset.range n := Finset.mem_range.mpr (h x (List.mem_cons_self ..))
    have rest := ih fun y hy => h y (List.mem_cons_of_mem _ hy)
    simp only [List.countP_cons, decide_eq_true_eq, Finset.sum_add_distrib, rest,
      Finset.sum_ite_eq, inside, if_true, List.length_cons]

namespace ShardedGraph

variable {p : Placement} {g : Digraph} {graph : ShardedGraph} {shards : Nat}

theorem Splits.knows (splits : graph.Splits g shards) : graph.registry.Knows g.edges := by
  intro edge hedge
  rw [splits.known, splits.known]
  exact Digraph.mem_mentions_of_mem_edges hedge

theorem Splits.holds_of_shard? (splits : graph.Splits g shards) {i : Nat} {shard : Shard}
    (hi : graph.shard? i = some shard) :
    shard.Holds graph.registry i (graph.registry.edgesById g.edges) := by
  obtain ⟨inside, rfl⟩ := List.getElem?_eq_some_iff.mp hi
  exact splits.holds i inside

/-- The neighbours of a vertex, by name. -/
theorem Splits.neighbours (splits : graph.Splits g shards) {i handle : Nat} {shard : Shard}
    {name : VertexName} (hi : graph.shard? i = some shard) (hosts : shard.Hosts handle name) :
    (shard.successors handle).mapM shard.nameOfHandle = .ok ((g.targetsOf name).map some) ∧
      (shard.predecessors handle).mapM shard.nameOfHandle = .ok ((g.sourcesOf name).map some) := by
  have holds := splits.holds_of_shard? hi
  have hat := (holds.hosts_iff splits.coherent splits.fits).mp hosts
  have hn := splits.coherent.id?_of_at hat
  have inner := holds.innerHandle?_pack splits.fits hat
  rw [if_pos rfl] at inner
  have called (edge : GlobalId × GlobalId)
      (hedge : edge ∈ graph.registry.edgesById g.edges) := Registry.calls_of_mem_edgesById hedge
  have named : shard.nameOfId? = graph.registry.name? := by
    funext id
    rw [Shard.nameOfId?, holds.registry]
  rw [Shard.mapM_nameOfHandle (holds.successors splits.coherent splits.fits called inner),
    Shard.mapM_nameOfHandle (holds.predecessors splits.coherent splits.fits called inner), named,
    Registry.names_of_targets splits.coherent splits.fits splits.knows hn,
    Registry.names_of_sources splits.coherent splits.fits splits.knows hn]
  exact ⟨rfl, rfl⟩

/-- Every vertex has one place. -/
theorem Splits.existsUnique_place (splits : graph.Splits g shards) {name : VertexName}
    (mentioned : name ∈ g.mentions) :
    ∃! place : Nat × Nat, ∃ shard, graph.shard? place.1 = some shard ∧
      shard.Hosts place.2 name := by
  obtain ⟨id, hn⟩ := Option.isSome_iff_exists.mp ((splits.known name).mpr mentioned)
  obtain ⟨i, slot, hat, -⟩ := (splits.coherent.id?_iff name id).mp hn
  have inside : i < graph.shards.length := by
    have shard_lt := hat.shard_lt
    rwa [splits.registry_shardNum, ← splits.shardNum] at shard_lt
  refine ⟨(i, slot), ⟨graph.shards[i], List.getElem?_eq_getElem inside,
    ((splits.holds i inside).hosts_iff splits.coherent splits.fits).mpr hat⟩, ?_⟩
  rintro ⟨j, slot'⟩ ⟨shard, hj, hosts⟩
  have hat' := ((splits.holds_of_shard? hj).hosts_iff splits.coherent splits.fits).mp hosts
  exact Prod.ext_iff.mpr (splits.coherent.once hat' hat)

/-- Every edge is stored by the shard of its source. -/
theorem Splits.sum_edgeNum (splits : graph.Splits g shards) :
    (graph.shards.map Shard.edgeNum).sum = g.edges.length := by
  have stored (i : Nat) (hi : i < graph.shards.length) : graph.shards[i].edgeNum =
      (graph.registry.edgesById g.edges).countP fun edge =>
        graph.registry.layout.shardOf edge.1 = i := by
    rw [Shard.edgeNum, (splits.holds i hi).outgoing.items_size, Shard.length_neighbours]
  have sources (edge : GlobalId × GlobalId) (hedge : edge ∈ graph.registry.edgesById g.edges) :
      graph.registry.layout.shardOf edge.1 < shards := by
    rw [← splits.registry_shardNum]
    exact (splits.coherent.fields_of_calls splits.fits
      (Registry.calls_of_mem_edgesById hedge).1).1
  rw [splits.sum_map stored, sum_countP_eq_length sources, Registry.length_edgesById splits.knows]

/-- Every vertex of a split graph has one place, and every inner handle is the place of one vertex.
    There its neighbours are the other ends of its edges, by name, in the order of the edges and
    with repetitions. So an edge is listed as often as its target is found from its source, and as
    often as its source is found from its target. The shards together store every edge once. -/
theorem adjacency_of_build (built : build p g = .ok graph) :
    (∀ name ∈ g.mentions, ∃! place : Nat × Nat, ∃ shard, graph.shard? place.1 = some shard ∧
      shard.Hosts place.2 name) ∧
    (∀ i shard, graph.shard? i = some shard → ∀ handle, shard.IsInner handle →
      ∃ name, shard.Hosts handle name) ∧
    (∀ i shard, graph.shard? i = some shard → ∀ handle name, shard.Hosts handle name →
      (shard.successors handle).mapM shard.nameOfHandle = .ok ((g.targetsOf name).map some) ∧
      (shard.predecessors handle).mapM shard.nameOfHandle = .ok ((g.sourcesOf name).map some)) ∧
    (∀ i j shard shard', graph.shard? i = some shard → graph.shard? j = some shard' →
      ∀ handle handle' source target, shard.Hosts handle source → shard'.Hosts handle' target →
        ∃ outs ins, (shard.successors handle).mapM shard.nameOfHandle = .ok outs ∧
          (shard'.predecessors handle').mapM shard'.nameOfHandle = .ok ins ∧
          outs.count (some target) = g.edges.count (source, target) ∧
          ins.count (some source) = g.edges.count (source, target)) ∧
    (graph.shards.map Shard.edgeNum).sum = graph.edgeNum ∧ graph.edgeNum = g.edges.length := by
  have splits := splits_of_build built
  obtain ⟨-, -, -, -, edgeNum⟩ := parts_of_build built
  rw [Registry.length_edgesById splits.knows] at edgeNum
  refine ⟨fun name => splits.existsUnique_place, fun i shard hi handle inner => ?_,
    fun i shard hi handle name => splits.neighbours hi,
    fun i j shard shard' hi hj handle handle' source target hosts hosts' => ?_,
    splits.sum_edgeNum.trans edgeNum.symm, edgeNum⟩
  · have holds := splits.holds_of_shard? hi
    obtain ⟨name, hat⟩ := Registry.exists_at (holds.isInner_iff.mp inner)
    exact ⟨name, (holds.hosts_iff splits.coherent splits.fits).mpr hat⟩
  · refine ⟨_, _, (splits.neighbours hi hosts).1, (splits.neighbours hj hosts').2, ?_, ?_⟩
    · rw [List.count_map_of_injective _ _ (Option.some_injective _), Digraph.count_targetsOf]
    · rw [List.count_map_of_injective _ _ (Option.some_injective _), Digraph.count_sourcesOf]

/-- Two vertices on two shards, with a double edge and a loop: the end of the edges finds their
    source twice, and the loop is found in both directions. -/
theorem adjacency_of_build_two_shards :
    let a : VertexName := .text "a"
    let g : Digraph := ⟨[], [(.number 1, a), (a, a), (.number 1, a)]⟩
    ∃ graph, build (.listed 2 [(.number 1, 1), (a, 0)]) g = .ok graph ∧ graph.edgeNum = 3 ∧
      ∃ i shard handle, graph.shard? i = some shard ∧ shard.Hosts handle a ∧
        (shard.successors handle).mapM shard.nameOfHandle = .ok [some a] ∧
        (shard.predecessors handle).mapM shard.nameOfHandle =
          .ok [some (.number 1), some a, some (.number 1)] := by
  intro a g
  obtain ⟨graph, built⟩ := exists_build (p := .listed 2 [(.number 1, 1), (a, 0)]) (g := g)
    (by decide) (by decide) (by decide)
  obtain ⟨places, -, neighbours, -, -, edgeNum⟩ := adjacency_of_build built
  obtain ⟨⟨i, handle⟩, ⟨shard, hi, hosts⟩, -⟩ := places a (by decide)
  obtain ⟨outs, ins⟩ := neighbours i shard hi handle a hosts
  exact ⟨graph, built, edgeNum, i, shard, handle, hi, hosts, outs, ins⟩

end ShardedGraph

end ShardCut
