import ShardCut.Proofs.Placement
import ShardCut.Proofs.Shard
import ShardCut.ShardedGraph

/-!
What a split graph is. If the placement has shards that can be addressed, and none of them gets more
vertices than the greatest slot, the graph is split: exactly the mentioned names have ids, and every
shard holds its part of the edges. In all other cases nothing comes out.

Main definitions: `ShardedGraph.Splits`. Main results: `ShardedGraph.splits_of_build`,
`ShardedGraph.exists_build`.
-/

namespace ShardCut

namespace Digraph

variable {g : Digraph}

/-- A name is mentioned as a vertex or as an end of an edge. -/
theorem mem_mentions {name : VertexName} :
    name ∈ g.mentions ↔ name ∈ g.vertices ∨ ∃ edge ∈ g.edges, name = edge.1 ∨ name = edge.2 := by
  simp only [mentions, List.mem_append, List.mem_flatMap, List.mem_cons, List.not_mem_nil, or_false]

/-- Both ends of an edge are mentioned. -/
theorem mem_mentions_of_mem_edges {edge : VertexName × VertexName} (h : edge ∈ g.edges) :
    edge.1 ∈ g.mentions ∧ edge.2 ∈ g.mentions := by
  rw [mem_mentions, mem_mentions]
  exact ⟨.inr ⟨edge, h, .inl rfl⟩, .inr ⟨edge, h, .inr rfl⟩⟩

end Digraph

/-- An edge between ids stands for an edge between their names. -/
theorem Registry.mem_edgesById {r : Registry} {edges : List (VertexName × VertexName)}
    {source target : GlobalId} :
    (source, target) ∈ r.edgesById edges ↔
      ∃ edge ∈ edges, r.id? edge.1 = some source ∧ r.id? edge.2 = some target := by
  rw [edgesById, List.mem_filterMap]
  apply exists_congr
  intro edge
  apply and_congr_right
  intro _
  cases hs : r.id? edge.1 <;> cases ht : r.id? edge.2 <;> simp [hs, ht]

theorem Registry.calls_of_mem_edgesById {r : Registry} {edges : List (VertexName × VertexName)}
    {edge : GlobalId × GlobalId} (h : edge ∈ r.edgesById edges) :
    r.Calls edge.1 ∧ r.Calls edge.2 := by
  obtain ⟨names, -, hs, ht⟩ := mem_edgesById.mp h
  exact ⟨⟨_, hs⟩, ⟨_, ht⟩⟩

namespace ShardedGraph

variable {p : Placement} {g : Digraph} {graph : ShardedGraph} {r : Registry}

/-- A graph is split over so many shards. -/
structure Splits (graph : ShardedGraph) (g : Digraph) (shards : Nat) : Prop where
  coherent : graph.registry.Coherent
  fits : graph.registry.Fits
  positive : 0 < shards
  known : ∀ name, (graph.registry.id? name).isSome ↔ name ∈ g.mentions
  shardNum : graph.shardNum = shards
  registry_shardNum : graph.registry.shardNum = shards
  holds : ∀ i (h : i < graph.shards.length),
    graph.shards[i].Holds graph.registry i (graph.registry.edgesById g.edges)

/-- The registration of all names of a graph. -/
theorem exists_registerAll (positive : p.shardNum ≠ 0) (g : Digraph) :
    ∃ r, (Registry.ofShards p.shardNum).registerAll p.owner g.mentions = .ok r ∧
      (Registry.ofShards p.shardNum).Adds r g.mentions :=
  (Registry.coherent_ofShards _).registerAll
    (fun name => by simpa using Placement.exists_owner positive name) g.mentions

theorem fits_of_adds (adds : (Registry.ofShards p.shardNum).Adds r g.mentions)
    (bound : p.shardNum < Registry.shardBound)
    (slots : ∀ shard, r.count shard ≤ r.layout.maxSlot) : r.Fits where
  shards := adds.coherent.shardNum_le (by rwa [adds.shardNum, Registry.shardNum_ofShards])
  slots := slots

/-- A graph whose names all fit their slots can be split. -/
theorem build_of_fits (positive : p.shardNum ≠ 0) (bound : p.shardNum < Registry.shardBound)
    (registered : (Registry.ofShards p.shardNum).registerAll p.owner g.mentions = .ok r)
    (adds : (Registry.ofShards p.shardNum).Adds r g.mentions)
    (slots : ∀ shard, r.count shard ≤ r.layout.maxSlot) :
    ∃ graph, build p g = .ok graph ∧ graph.Splits g p.shardNum := by
  have room : r.Fits := fits_of_adds adds bound slots
  have called (edge : GlobalId × GlobalId) (hedge : edge ∈ r.edgesById g.edges) :=
    Registry.calls_of_mem_edgesById hedge
  obtain ⟨shards, built, holds⟩ := exists_mapM_eq_ok (List.range p.shardNum)
    fun index _ => Shard.build_eq_ok adds.coherent room called index
  have fine : ((List.range p.shardNum).any fun shard => r.layout.maxSlot < r.count shard) =
      false := by
    simpa using fun shard _ => slots shard
  rw [List.forall₂_iff_get] at holds
  refine ⟨⟨r, shards, (r.edgesById g.edges).length⟩, ?_, adds.coherent, room,
    Nat.pos_of_ne_zero positive, fun name => ?_, ?_, ?_, fun i hi => ?_⟩
  · simp only [build, if_neg positive, Registry.create, if_pos bound]
    simp [bind, Except.bind, registered, fine, built, pure, Except.pure]
  · rw [adds.known]
    simp [Registry.ofShards, Registry.id?]
  · rw [ShardedGraph.shardNum, ← holds.1, List.length_range]
  · rw [adds.shardNum, Registry.shardNum_ofShards]
  · have hi' : i < (List.range p.shardNum).length := by
      rw [holds.1]
      exact hi
    simpa using holds.2 i hi' hi

/-- What a graph is built from: the registration of all names, with no shard too large. -/
theorem parts_of_build (built : build p g = .ok graph) :
    p.shardNum ≠ 0 ∧ p.shardNum < Registry.shardBound ∧
      (Registry.ofShards p.shardNum).registerAll p.owner g.mentions = .ok graph.registry ∧
      (∀ shard < p.shardNum, graph.registry.count shard ≤ graph.registry.layout.maxSlot) ∧
      graph.edgeNum = (graph.registry.edgesById g.edges).length := by
  by_cases positive : p.shardNum = 0
  · simp only [build, if_pos positive] at built
    cases built
  by_cases bound : p.shardNum < Registry.shardBound
  swap
  · simp only [build, if_neg positive, Registry.create, if_neg bound] at built
    cases built
  obtain ⟨r, registered, -⟩ := exists_registerAll positive g
  simp only [build, if_neg positive, Registry.create, if_pos bound] at built
  simp only [bind, Except.bind, registered] at built
  by_cases tooLarge :
      ((List.range p.shardNum).any fun shard => r.layout.maxSlot < r.count shard) = true
  · simp [tooLarge, throw, throwThe, MonadExceptOf.throw] at built
  · have slots : ∀ shard < p.shardNum, r.count shard ≤ r.layout.maxSlot := by simpa using tooLarge
    simp only [if_neg tooLarge, pure, Except.pure] at built
    cases split : (List.range p.shardNum).mapM fun index =>
        Shard.build index r (r.edgesById g.edges) with
    | error failure => simp [split] at built
    | ok shards =>
      simp only [split, Except.ok.injEq] at built
      obtain rfl := built
      exact ⟨positive, bound, registered, slots, rfl⟩

/-- Whatever is built is the graph, split over the shards of the placement. -/
theorem splits_of_build (built : build p g = .ok graph) : graph.Splits g p.shardNum := by
  obtain ⟨positive, bound, registered, slots, -⟩ := parts_of_build built
  obtain ⟨r, registered', adds⟩ := exists_registerAll positive g
  obtain rfl : graph.registry = r := Except.ok.inj (registered.symm.trans registered')
  have every (shard : Nat) : graph.registry.count shard ≤ graph.registry.layout.maxSlot := by
    by_cases hs : shard < p.shardNum
    · exact slots shard hs
    · rw [← Registry.shardNum_ofShards p.shardNum, ← adds.shardNum] at hs
      rw [Registry.count_of_shardNum_le (Nat.le_of_not_lt hs)]
      exact Nat.zero_le _
  obtain ⟨graph', built', splits⟩ := build_of_fits positive bound registered adds every
  rw [built'] at built
  cases built
  exact splits

/-- A graph with no more mentions than the greatest slot can be split over any shards that can be
    addressed. -/
theorem exists_build (positive : p.shardNum ≠ 0) (bound : p.shardNum < Registry.shardBound)
    (few : g.mentions.length ≤ (IdLayout.ofShards p.shardNum).maxSlot) :
    ∃ graph, build p g = .ok graph := by
  obtain ⟨r, registered, adds⟩ := exists_registerAll positive g
  have slots (shard : Nat) : r.count shard ≤ r.layout.maxSlot := by
    have le := adds.count_le shard
    rw [Registry.count_ofShards] at le
    rw [adds.coherent.layout, adds.shardNum, Registry.shardNum_ofShards]
    omega
  obtain ⟨graph, built, -⟩ := build_of_fits positive bound registered adds slots
  exact ⟨graph, built⟩

end ShardedGraph

end ShardCut
