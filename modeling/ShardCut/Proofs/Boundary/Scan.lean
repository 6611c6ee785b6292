import ShardCut.Boundary.Query
import ShardCut.Boundary.Scan
import ShardCut.Proofs.Boundary.Merge
import ShardCut.Proofs.ShardedGraph

/-!
What one shard contributes. Whatever the two sets hold, a scan never fails, and it finds the
boundary edges that start in its shard: no other edges, and all of these. Ids that call no vertex,
or one of another shard, contribute nothing.

Main definitions: `scanIn`. Main results: `exists_scanIn`, `exists_scans`.
-/

namespace ShardCut

namespace Boundary

variable {shard : Shard} {r : Registry} {index : Nat} {edges : List (GlobalId × GlobalId)}

/-- The edges that a scan finds at one vertex of the first set. -/
theorem exists_scanFrom (h : shard.Holds r index edges) (coherent : r.Coherent) (room : r.Fits)
    (called : ∀ edge ∈ edges, r.Calls edge.1 ∧ r.Calls edge.2) (primary secondary : IdSet)
    (source : GlobalId) :
    ∃ found, scanFrom shard primary secondary source = .ok found ∧
      ∀ edge, edge ∈ found ↔ edge.1 = source ∧ edge ∈ edges ∧
        Shard.Owns r.layout index edge.1 ∧ Crosses primary secondary edge.2 := by
  cases hin : shard.innerHandle? source with
  | none =>
    refine ⟨[], by rw [scanFrom, hin], fun edge => iff_of_false List.not_mem_nil ?_⟩
    intro given
    rcases given with ⟨rfl, hedge, owns, -⟩
    have inside := (coherent.fields_of_calls room (called edge hedge).1).2
    rw [show r.layout.shardOf edge.1 = index from owns, ← h.innerNum] at inside
    have inner : shard.innerHandle? edge.1 = some (shard.registry.layout.slotOf edge.1) := by
      rw [Shard.innerHandle?_eq_some_iff, h.registry, h.index]
      exact ⟨owns, inside, rfl⟩
    rw [inner] at hin
    cases hin
  | some handle =>
    have owns := (Shard.innerHandle?_eq_some_iff.mp hin).1
    rw [h.registry, h.index] at owns
    refine ⟨_, by rw [scanFrom, hin]; simp only [h.successors coherent room called hin]; rfl,
      fun edge => ?_⟩
    simp only [List.mem_map, List.mem_filter, decide_eq_true_eq]
    constructor
    · intro given
      rcases given with ⟨target, ⟨⟨edge', ⟨hedge, rfl⟩, rfl⟩, crosses⟩, rfl⟩
      exact ⟨rfl, hedge, owns, crosses⟩
    · intro given
      rcases given with ⟨rfl, hedge, -, crosses⟩
      exact ⟨edge.2, ⟨⟨edge, ⟨hedge, rfl⟩, rfl⟩, crosses⟩, rfl⟩

/-- What is found at some vertex is in what is found at all of them. -/
theorem mem_flatten_of_forall₂ {α β : Type} {P : α → β → Prop} {xs : List α} {yss : List (List β)}
    (h : List.Forall₂ (fun x ys => ∀ y, y ∈ ys ↔ P x y) xs yss) {y : β} :
    y ∈ yss.flatten ↔ ∃ x ∈ xs, P x y := by
  induction h with
  | nil => simp
  | cons hx _ ih => simp [hx, ih]

/-- A scan that goes through the ids of the first set in this order. -/
def scanIn (shard : Shard) (primary secondary : IdSet) (order : List GlobalId) :
    Except Failure IdPairSet := do
  let found ← order.mapM (scanFrom shard primary secondary)
  return .ofList found.flatten

/-- In whichever order it goes through the ids, a scan finds the boundary edges that start in its
    shard, and it always comes to an end. -/
theorem exists_scanIn (h : shard.Holds r index edges) (coherent : r.Coherent) (room : r.Fits)
    (called : ∀ edge ∈ edges, r.Calls edge.1 ∧ r.Calls edge.2) {primary : IdSet} (secondary : IdSet)
    {order : List GlobalId} (enumerates : ∀ id, id ∈ order ↔ id ∈ primary) :
    ∃ found, scanIn shard primary secondary order = .ok found ∧
      ∀ edge, edge ∈ found ↔ edge.1 ∈ primary ∧ edge ∈ edges ∧
        Shard.Owns r.layout index edge.1 ∧ Crosses primary secondary edge.2 := by
  obtain ⟨found, scanned, each⟩ := exists_mapM_eq_ok order
    fun source _ => exists_scanFrom h coherent room called primary secondary source
  refine ⟨.ofList found.flatten, ?_, fun edge => ?_⟩
  · rw [scanIn, scanned]
    rfl
  · rw [IdPairSet.mem_ofList, mem_flatten_of_forall₂ each]
    simp [enumerates]

/-- The scans of the shards of a graph: what they find does not depend on the order of the ids. -/
theorem exists_scans {graph : ShardedGraph} {g : Digraph} {shards : Nat}
    (splits : graph.Splits g shards) (primary secondary : IdSet) :
    ∃ own : Fin graph.shards.length → IdPairSet,
      (∀ i, scan (graph.shards.get i) primary secondary = .ok (own i)) ∧
      (∀ i order, (∀ id, id ∈ order ↔ id ∈ primary) →
        ∃ found, scanIn (graph.shards.get i) primary secondary order = .ok found ∧
          found.toList = (own i).toList) ∧
      ∀ i edge, edge ∈ own i ↔ edge.1 ∈ primary ∧ edge ∈ graph.registry.edgesById g.edges ∧
        Shard.Owns graph.registry.layout i edge.1 ∧ Crosses primary secondary edge.2 := by
  have called (edge : GlobalId × GlobalId) (hedge : edge ∈ graph.registry.edgesById g.edges) :=
    Registry.calls_of_mem_edgesById hedge
  have scans (i : Fin graph.shards.length) (order : List GlobalId)
      (enumerates : ∀ id, id ∈ order ↔ id ∈ primary) :=
    exists_scanIn (splits.holds i i.isLt) splits.coherent splits.fits called secondary enumerates
  choose own scanned found using fun i => scans i primary.toList fun _ => Std.TreeSet.mem_toList
  refine ⟨own, scanned, fun i order enumerates => ?_, found⟩
  rcases scans i order enumerates with ⟨found', scanned', same⟩
  refine ⟨found', scanned', toList_eq_of_mem_iff fun edge => ?_⟩
  rw [same, found]

end Boundary

end ShardCut
