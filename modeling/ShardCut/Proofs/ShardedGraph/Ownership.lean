import Mathlib.Algebra.GroupWithZero.Nat
import ShardCut.Proofs.Registry.Numbering
import ShardCut.Proofs.ShardedGraph

/-!
Who owns the vertices of a split graph, and under which number. Exactly the mentioned names are
vertices. Each belongs to the one shard that the placement says, and there it has the number of the
vertices of this shard that were mentioned earlier. All shards translate between the name and the
id, but only the owner has the vertex among its inner ones.

Main results: `owner_eq_shardOf`, `Splits.translates`, `ownership_of_build`.
-/

namespace ShardCut

/-- A sum over shards by their index. -/
theorem ShardedGraph.Splits.sum_map {graph : ShardedGraph} {g : Digraph} {shards : Nat}
    (splits : graph.Splits g shards) {measure : Shard → Nat} {value : Nat → Nat}
    (each : ∀ i (h : i < graph.shards.length), measure graph.shards[i] = value i) :
    (graph.shards.map measure).sum = ∑ i ∈ Finset.range shards, value i := by
  have listed : graph.shards.map measure = (List.range shards).map value := by
    apply List.ext_getElem
    · rw [List.length_map, List.length_map, List.length_range]
      exact splits.shardNum
    · intro i hi _
      simpa using each i (by simpa using hi)
  rw [listed]
  rfl

namespace ShardedGraph

variable {shards : Nat} {entries : List (VertexName × Nat)} {g : Digraph} {graph : ShardedGraph}

/-- In a graph that was split every name has an owner that exists. -/
theorem listedOwner_lt_of_build (built : build (.listed shards entries) g = .ok graph)
    (name : VertexName) : Placement.listedOwner shards entries name < shards := by
  obtain ⟨positive, -⟩ := parts_of_build built
  exact Placement.ownerByEntry_lt positive _ name

/-- The names of a split graph are numbered by first mention, each with its owner. -/
theorem numbers_of_placement {p : Placement} (built : build p g = .ok graph) :
    graph.registry.Numbers p.ownerOf g.mentions := by
  obtain ⟨positive, -, registered, -⟩ := parts_of_build built
  have owned (name : VertexName) :
      p.ownerOf name < (Registry.ofShards p.shardNum).shardNum := by
    rw [Registry.shardNum_ofShards]
    exact Placement.ownerByEntry_lt positive _ name
  obtain ⟨r, registered', numbers⟩ :=
    (Registry.numbers_ofShards p.ownerOf p.shardNum).registerAll owned g.mentions
  rw [Placement.owner_eq_ownerOf positive] at registered
  obtain rfl : graph.registry = r := Except.ok.inj (registered.symm.trans registered')
  exact numbers

theorem numbers_of_build (built : build (.listed shards entries) g = .ok graph) :
    graph.registry.Numbers (Placement.listedOwner shards entries) g.mentions := by
  rw [← Placement.ownerOf_listed]
  exact numbers_of_placement built

/-- The shard field of an id is the owner of its name. -/
theorem owner_eq_shardOf {p : Placement} {name : VertexName} {id : GlobalId}
    (built : build p g = .ok graph) (hn : graph.registry.id? name = some id) :
    p.owner name = .ok (graph.registry.layout.shardOf id) := by
  obtain ⟨positive, -⟩ := parts_of_build built
  have splits := splits_of_build built
  have mentioned : name ∈ g.mentions := (splits.known name).mp (by rw [hn]; rfl)
  have hat := (numbers_of_placement built).stands name mentioned
  rw [splits.coherent.id?_of_at hat] at hn
  obtain rfl := Option.some.inj hn
  rw [(hat.fields_pack splits.fits.shards (Nat.le_succ_of_le (splits.fits.slots _))).1]
  exact Placement.owner_eq positive name

/-- A shard owns an id when the placement gives the name of the id to this shard. -/
theorem owns_iff_owner {p : Placement} {name : VertexName} {id : GlobalId} {i : Nat}
    (built : build p g = .ok graph) (hn : graph.registry.id? name = some id) :
    Shard.Owns graph.registry.layout i id ↔ p.owner name = .ok i := by
  rw [owner_eq_shardOf built hn, Except.ok.injEq]
  rfl

/-- Every shard knows a registered name by its id, and its id by the name. -/
theorem Splits.translates {name : VertexName} {id : GlobalId} (splits : graph.Splits g shards)
    (hn : graph.registry.id? name = some id) (i : Nat) (hi : i < graph.shards.length) :
    graph.shards[i].idOfName? name = some id ∧ graph.shards[i].nameOfId? id = some name := by
  rw [Shard.idOfName?, Shard.nameOfId?, (splits.holds i hi).registry]
  exact ⟨hn, (splits.coherent.name?_eq_some_iff_id? splits.fits).mpr hn⟩

/-- The vertices of a split graph are the listed names and the ends of the edges. Each belongs to
    one shard: the last one that is listed for it, if that one exists, and otherwise the one of its
    hash. Its slot is the number of the names of this shard that were mentioned for the first time
    earlier. Every shard translates between name and id, and the owner alone has an inner handle
    for it. Without entries the placement is the one that hashes every name. -/
theorem ownership_of_build (built : build (.listed shards entries) g = .ok graph) :
    graph.shards.length = shards ∧
      (∀ name, (graph.registry.id? name).isSome ↔
        name ∈ g.vertices ∨ ∃ edge ∈ g.edges, name = edge.1 ∨ name = edge.2) ∧
      (∀ name ∈ g.mentions,
        let owner := Placement.listedOwner shards entries name
        let slot := Registry.rank (Placement.listedOwner shards entries) g.mentions name
        let id := (IdLayout.ofShards shards).pack owner slot
        owner < shards ∧ (graph.registry.membersOf owner)[slot]? = some name ∧
          ∀ i (h : i < graph.shards.length),
            graph.shards[i].idOfName? name = some id ∧
            graph.shards[i].nameOfId? id = some name ∧
            graph.shards[i].innerHandle? id = if i = owner then some slot else none) ∧
      (graph.shards.map Shard.innerNum).sum = graph.vertexNum ∧
      graph.vertexNum = g.mentions.toFinset.card := by
  have splits := splits_of_build built
  have numbers := numbers_of_build built
  rw [Placement.shardNum_listed] at splits
  have layout : graph.registry.layout = .ofShards shards := by
    rw [splits.coherent.layout, splits.registry_shardNum]
  refine ⟨splits.shardNum, fun name => ?_, fun name hname => ?_, ?_, numbers.total⟩
  · rw [splits.known, Digraph.mem_mentions]
  · have hat := numbers.stands name hname
    have hn := splits.coherent.id?_of_at hat
    rw [← layout]
    refine ⟨listedOwner_lt_of_build built name, hat, fun i hi => ?_⟩
    obtain ⟨known, named⟩ := splits.translates hn i hi
    exact ⟨known, named, (splits.holds i hi).innerHandle?_pack splits.fits hat⟩
  · rw [splits.sum_map fun i hi => (splits.holds i hi).innerNum]
    exact numbers.sum_count (listedOwner_lt_of_build built)

/-- Of the entries for `1` the later one counts, and `a` has one for a shard that does not exist, so
    that its hash decides. Vertex `b` comes after `1` on their shard. The same graph may also be
    split by hash alone. -/
theorem ownership_of_build_two_shards :
    let g : Digraph := ⟨[.number 1, .number 1], [(.number 1, .text "a"), (.text "b", .number 1)]⟩
    let entries : List (VertexName × Nat) :=
      [(.number 1, 0), (.text "a", 9), (.number 1, 1), (.text "b", 1)]
    (∃ graph, build (.listed 2 entries) g = .ok graph ∧ graph.vertexNum = 3 ∧
      ∀ i (h : i < graph.shards.length),
        graph.shards[i].idOfName? (.text "b") = some 0x8000000000000001 ∧
        graph.shards[i].innerHandle? 0x8000000000000001 = (if i = 1 then some 1 else none) ∧
        graph.shards[i].innerHandle? 0 = if i = 0 then some 0 else none) ∧
    ∃ graph, build (.hashed 2) g = .ok graph ∧ graph.vertexNum = 3 := by
  intro g entries
  constructor
  · obtain ⟨graph, built⟩ :=
      exists_build (p := .listed 2 entries) (g := g) (by decide) (by decide) (by decide)
    obtain ⟨-, -, owned, -, total⟩ := ownership_of_build built
    obtain ⟨-, -, onB⟩ := owned (.text "b") (by decide)
    obtain ⟨-, -, onA⟩ := owned (.text "a") (by decide)
    have idB : (IdLayout.ofShards 2).pack (Placement.listedOwner 2 entries (.text "b"))
        (Registry.rank (Placement.listedOwner 2 entries) g.mentions (.text "b")) =
          0x8000000000000001 := by decide
    have idA : (IdLayout.ofShards 2).pack (Placement.listedOwner 2 entries (.text "a"))
        (Registry.rank (Placement.listedOwner 2 entries) g.mentions (.text "a")) = 0 := by decide
    simp only [idB] at onB
    simp only [idA] at onA
    exact ⟨graph, built, total, fun i hi => ⟨(onB i hi).1, (onB i hi).2.2, (onA i hi).2.2⟩⟩
  · rw [← Placement.listed_nil]
    obtain ⟨graph, built⟩ :=
      exists_build (p := .listed 2 []) (g := g) (by decide) (by decide) (by decide)
    obtain ⟨-, -, -, -, total⟩ := ownership_of_build built
    exact ⟨graph, built, total⟩

end ShardedGraph

end ShardCut
