import ShardCut.Proofs.Shard.Handles
import ShardCut.Proofs.ShardedGraph.Adjacency

/-!
The handles of the shards of a split graph. The inner handles of a shard call the vertices that the
placement gives to it, and the handles behind them the vertices of other shards that an edge joins
with one of its own. No vertex has two handles on a shard, and the look-ups in both directions agree
for every word, also for one that calls no vertex at all.

Main definitions: `Placement.Borders`, `Shard.HandlesExact`. Main results: `mem_outerEnds_iff`,
`handles_of_build`.
-/

namespace ShardCut

/-- A vertex borders on a shard when the placement gives it to another one, and an edge joins it
    with a vertex of the shard. -/
def Placement.Borders (p : Placement) (g : Digraph) (i : Nat) (name : VertexName) : Prop :=
  p.owner name ≠ .ok i ∧ ∃ edge ∈ g.edges,
    edge.1 = name ∧ p.owner edge.2 = .ok i ∨ edge.2 = name ∧ p.owner edge.1 = .ok i

/-- The handles of a shard stand for its vertices: those of the placement first, and behind them, by
    ascending id, those that border on it. -/
structure Shard.HandlesExact (shard : Shard) (r : Registry) (p : Placement) (g : Digraph)
    (i : Nat) : Prop where
  /-- Exactly the handles below the number of vertices have an id. -/
  defined : ∀ handle, (∃ id, shard.idOfHandle handle = .ok id) ↔
    handle < shard.innerNum + shard.outerNum
  injective : ∀ handle handle' id, shard.idOfHandle handle = .ok id →
    shard.idOfHandle handle' = .ok id → handle = handle'
  inner : ∀ id, (∃ handle < shard.innerNum, shard.idOfHandle handle = .ok id) ↔
    ∃ name ∈ g.mentions, r.id? name = some id ∧ p.owner name = .ok i
  outer : ∀ id, (∃ handle ≥ shard.innerNum, shard.idOfHandle handle = .ok id) ↔
    ∃ name ∈ g.mentions, r.id? name = some id ∧ p.Borders g i name
  ascending : ∀ handle handle' id id', shard.innerNum ≤ handle → handle < handle' →
    shard.idOfHandle handle = .ok id → shard.idOfHandle handle' = .ok id' → id < id'
  /-- A word has the handle that has this word as its id, and otherwise none. -/
  handle?_iff : ∀ id handle, shard.handle? id = some handle ↔
    handle < shard.innerNum + shard.outerNum ∧ shard.idOfHandle handle = .ok id
  innerHandle?_iff : ∀ id handle, shard.innerHandle? id = some handle ↔
    handle < shard.innerNum ∧ shard.handle? id = some handle
  /-- Neighbours in either direction are vertices of the shard and have names. -/
  neighbour : ∀ handle neighbour,
    neighbour ∈ shard.successors handle ∨ neighbour ∈ shard.predecessors handle →
      neighbour < shard.innerNum + shard.outerNum ∧
        ∃ name, shard.nameOfHandle neighbour = .ok (some name)

namespace ShardedGraph

variable {p : Placement} {g : Digraph} {graph : ShardedGraph} {i : Nat} {shard : Shard}
  {id : GlobalId}

/-- The inner handles of a shard call the vertices that it owns. -/
theorem exists_inner_iff (built : build p g = .ok graph) (hi : graph.shard? i = some shard) :
    (∃ handle, shard.IsInner handle ∧ shard.idOfHandle handle = .ok id) ↔
      ∃ name ∈ g.mentions, graph.registry.id? name = some id ∧ p.owner name = .ok i := by
  have splits := splits_of_build built
  have holds := splits.holds_of_shard? hi
  constructor
  · rintro ⟨handle, inner, hid⟩
    obtain ⟨name, hat⟩ := Registry.exists_at (holds.isInner_iff.mp inner)
    have owns := holds.owns_of_isInner splits.fits inner hid
    rw [holds.idOfHandle_of_isInner inner] at hid
    obtain rfl := Except.ok.inj hid
    have hn := splits.coherent.id?_of_at hat
    exact ⟨name, (splits.known name).mp (by rw [hn]; rfl), hn, (owns_iff_owner built hn).mp owns⟩
  · rintro ⟨name, -, hn, owner⟩
    have owns := (owns_iff_owner built hn).mpr owner
    obtain ⟨-, inside⟩ := splits.coherent.fields_of_calls splits.fits ⟨name, hn⟩
    rw [show graph.registry.layout.shardOf id = i from owns, ← holds.isInner_iff] at inside
    refine ⟨_, inside, ?_⟩
    rw [holds.idOfHandle_of_isInner inside, Shard.pack_slotOf_of_owns owns]

/-- The outer ends of the edges of a shard are the vertices that border on it. -/
theorem mem_outerEnds_iff (built : build p g = .ok graph) :
    id ∈ Shard.outerEnds graph.registry.layout i (graph.registry.edgesById g.edges) ↔
      ∃ name ∈ g.mentions, graph.registry.id? name = some id ∧ p.Borders g i name := by
  have splits := splits_of_build built
  rw [Shard.mem_outerEnds]
  constructor
  · rintro ⟨edge, hedge, ends⟩
    obtain ⟨row, hrow, hs, ht⟩ := Registry.mem_edgesById.mp hedge
    obtain ⟨source, target⟩ := Digraph.mem_mentions_of_mem_edges hrow
    rw [owns_iff_owner built hs, owns_iff_owner built ht] at ends
    rcases ends with ⟨own, foreign, rfl⟩ | ⟨foreign, own, rfl⟩
    · exact ⟨row.2, target, ht, foreign, row, hrow, .inr ⟨rfl, own⟩⟩
    · exact ⟨row.1, source, hs, foreign, row, hrow, .inl ⟨rfl, own⟩⟩
  · rintro ⟨name, -, hn, foreign, row, hrow, ends⟩
    obtain ⟨source, target⟩ := Digraph.mem_mentions_of_mem_edges hrow
    obtain ⟨s, hs⟩ := Option.isSome_iff_exists.mp ((splits.known _).mpr source)
    obtain ⟨t, ht⟩ := Option.isSome_iff_exists.mp ((splits.known _).mpr target)
    refine ⟨(s, t), Registry.mem_edgesById.mpr ⟨row, hrow, hs, ht⟩, ?_⟩
    rw [owns_iff_owner built hs, owns_iff_owner built ht]
    rcases ends with ⟨rfl, own⟩ | ⟨rfl, own⟩
    · exact .inr ⟨foreign, own, Option.some.inj (hn.symm.trans hs)⟩
    · exact .inl ⟨own, foreign, Option.some.inj (hn.symm.trans ht)⟩

/-- On every shard of a split graph handles and ids stand for each other, and neighbours are called
    by handles of the shard. -/
theorem handles_of_build (built : build p g = .ok graph) (hi : graph.shard? i = some shard) :
    shard.HandlesExact graph.registry p g i := by
  have splits := splits_of_build built
  have holds := splits.holds_of_shard? hi
  have called (edge : GlobalId × GlobalId)
      (hedge : edge ∈ graph.registry.edgesById g.edges) := Registry.calls_of_mem_edgesById hedge
  have found (id : GlobalId) (handle : Nat) :
      shard.handle? id = some handle ↔ shard.idOfHandle handle = .ok id :=
    holds.handle?_eq_some_iff splits.fits
  refine ⟨fun handle => Shard.isLocal_iff_idOfHandle.symm,
    fun handle handle' id => holds.idOfHandle_inj splits.fits,
    fun id => exists_inner_iff built hi, fun id => ?_,
    fun handle handle' id id' => holds.idOfHandle_lt, fun id handle => ?_, fun id handle => ?_,
    fun handle neighbour mem => ?_⟩
  · rw [← mem_outerEnds_iff built, ← holds.exists_handle_iff_mem_outerEnds]
  · rw [found]
    refine ⟨fun hid => ⟨Shard.isLocal_iff_idOfHandle.mpr ⟨id, hid⟩, hid⟩, fun both => both.2⟩
  · rw [found]
    exact holds.innerHandle?_eq_some_iff_idOfHandle splits.fits
  · obtain ⟨id, ⟨name, hn⟩, hid⟩ :=
      holds.idOfHandle_of_mem_neighbours splits.coherent splits.fits called mem
    refine ⟨Shard.isLocal_iff_idOfHandle.mpr ⟨id, hid⟩, name, ?_⟩
    rw [Shard.nameOfHandle, hid, Except.map, Shard.nameOfId?, holds.registry,
      (splits.coherent.name?_eq_some_iff_id? splits.fits).mpr hn]

/-- Two vertices on two shards: the source of the one edge borders on the shard of its target. -/
theorem handles_of_build_two_shards :
    let p : Placement := .listed 2 [(.number 1, 1), (.text "a", 0)]
    let g : Digraph := ⟨[], [(.number 1, .text "a")]⟩
    ∃ graph shard id handle, build p g = .ok graph ∧ graph.shard? 0 = some shard ∧
      graph.registry.id? (.number 1) = some id ∧ shard.innerNum ≤ handle ∧
      shard.handle? id = some handle ∧ shard.innerHandle? id = none := by
  intro p g
  obtain ⟨graph, built⟩ := exists_build (p := p) (g := g) (by decide) (by decide) (by decide)
  have splits := splits_of_build built
  have known : (graph.registry.id? (.number 1)).isSome := (splits.known _).mpr (by decide)
  obtain ⟨id, hn⟩ := Option.isSome_iff_exists.mp known
  have first : 0 < graph.shards.length := by
    rw [← ShardedGraph.shardNum, splits.shardNum]
    decide
  obtain ⟨shard, hi⟩ : ∃ shard, graph.shard? 0 = some shard := ⟨_, List.getElem?_eq_getElem first⟩
  have exact := handles_of_build built hi
  have owner (name : VertexName) :
      p.owner name = .ok (Placement.listedOwner 2 [(.number 1, 1), (.text "a", 0)] name) := by
    rw [Placement.owner_eq_ownerOf (by decide), Placement.ownerOf_listed]
  have borders : p.Borders g 0 (.number 1) := by
    refine ⟨?_, _, List.mem_singleton_self _, .inl ⟨rfl, ?_⟩⟩
    all_goals
      rw [owner]
      decide
  obtain ⟨handle, behind, hid⟩ := (exact.outer id).mpr ⟨.number 1, by decide, hn, borders⟩
  have found := (exact.handle?_iff id handle).mpr ⟨(exact.defined handle).mp ⟨id, hid⟩, hid⟩
  refine ⟨graph, shard, id, handle, built, hi, hn, behind, found, ?_⟩
  rw [Option.eq_none_iff_forall_ne_some]
  intro handle' inner
  obtain ⟨inside, found'⟩ := (exact.innerHandle?_iff id handle').mp inner
  obtain rfl := Option.some.inj (found.symm.trans found')
  exact Nat.not_lt_of_le behind inside

end ShardedGraph

end ShardCut
