import Mathlib.Algebra.Order.BigOperators.Group.Finset
import ShardCut.Proofs.Boundary.Scan
import ShardCut.Proofs.ShardedGraph.Ownership

/-!
How the scans share a boundary. Any two sets of ids have a boundary, also if some of the ids call no
vertex. The scan of a shard finds the part of it whose sources the shard owns. A source has one
owner, so no edge is found twice, and none is left out.

Main definitions: `Cuts`. Main results: `ShardedGraph.cuts_unique`, `ShardedGraph.scans_of_build`.
-/

namespace ShardCut

namespace Boundary

/-- A listed edge has these ids at its ends, and it crosses the boundary of two sets of ids: it
    leads from the first set into the second one, or, if that is empty, out of the first one. -/
structure Cuts (r : Registry) (primary secondary : IdSet) (row : VertexName × VertexName)
    (edge : GlobalId × GlobalId) : Prop where
  source : r.id? row.1 = some edge.1
  target : r.id? row.2 = some edge.2
  starts : edge.1 ∈ primary
  ends : if secondary.isEmpty then edge.2 ∉ primary else edge.2 ∈ secondary

/-- The numbers of edges of disjoint sets add up to that of their union. -/
theorem size_eq_sum {n : Nat} {own : Fin n → IdPairSet} {merged : IdPairSet}
    (covers : ∀ edge, edge ∈ merged ↔ ∃ i, edge ∈ own i)
    (disjoint : ∀ i j edge, edge ∈ own i → edge ∈ own j → i = j) :
    merged.size = ∑ i, (own i).size := by
  have size (edges : IdPairSet) : edges.size = edges.toList.toFinset.card := by
    rw [List.toFinset_card_of_nodup (nodup_toList edges), Std.TreeSet.length_toList]
  have union : merged.toList.toFinset = Finset.univ.biUnion fun i => (own i).toList.toFinset := by
    ext edge
    simp [covers]
  rw [size, union, Finset.card_biUnion]
  · exact Finset.sum_congr rfl fun i _ => (size (own i)).symm
  · intro i _ j _ other
    refine Finset.disjoint_left.mpr fun edge inOne inOther => ?_
    rw [List.mem_toFinset, Std.TreeSet.mem_toList] at inOne inOther
    exact other (disjoint i j edge inOne inOther)

end Boundary

namespace ShardedGraph

open Boundary

variable {p : Placement} {g : Digraph} {graph : ShardedGraph} {primary secondary : IdSet}

/-- The edges that a scan finds, in terms of the placement. -/
theorem found_iff_cuts (built : build p g = .ok graph) {i : Nat} {edge : GlobalId × GlobalId} :
    (edge.1 ∈ primary ∧ edge ∈ graph.registry.edgesById g.edges ∧
        Shard.Owns graph.registry.layout i edge.1 ∧ Crosses primary secondary edge.2) ↔
      ∃ row ∈ g.edges, p.owner row.1 = .ok i ∧
        Cuts graph.registry primary secondary row edge := by
  constructor
  · rintro ⟨starts, listed, owns, ends⟩
    obtain ⟨row, hrow, hs, ht⟩ := Registry.mem_edgesById.mp listed
    exact ⟨row, hrow, (owns_iff_owner built hs).mp owns, hs, ht, starts, ends⟩
  · rintro ⟨row, hrow, owner, cuts⟩
    exact ⟨cuts.starts, Registry.mem_edgesById.mpr ⟨row, hrow, cuts.source, cuts.target⟩,
      (owns_iff_owner built cuts.source).mpr owner, cuts.ends⟩

/-- The parts that are found on the shards are the whole boundary. -/
theorem exists_cuts_iff (built : build p g = .ok graph) {edge : GlobalId × GlobalId} :
    (∃ i : Fin graph.shards.length, ∃ row ∈ g.edges, p.owner row.1 = .ok i.val ∧
        Cuts graph.registry primary secondary row edge) ↔
      ∃ row ∈ g.edges, Cuts graph.registry primary secondary row edge := by
  constructor
  · rintro ⟨i, row, hrow, -, cuts⟩
    exact ⟨row, hrow, cuts⟩
  · rintro ⟨row, hrow, cuts⟩
    have splits := splits_of_build built
    obtain ⟨i, owner, lt⟩ := Placement.exists_owner (Nat.ne_zero_of_lt splits.positive) row.1
    rw [← splits.shardNum] at lt
    exact ⟨⟨i, lt⟩, row, hrow, owner, cuts⟩

/-- The source of an edge has one owner, so the edge is part of what is found on one shard only. -/
theorem cuts_unique (built : build p g = .ok graph) {i j : Nat} {edge : GlobalId × GlobalId}
    {row row' : VertexName × VertexName} (owner : p.owner row.1 = .ok i)
    (cuts : Cuts graph.registry primary secondary row edge) (owner' : p.owner row'.1 = .ok j)
    (cuts' : Cuts graph.registry primary secondary row' edge) : i = j := by
  have owns := (owns_iff_owner built cuts.source).mpr owner
  have owns' := (owns_iff_owner built cuts'.source).mpr owner'
  exact owns.symm.trans owns'

/-- The scans of a split graph find its boundary between any two sets of ids, each the part that
    starts in its shard, in whichever order it goes through the ids. The parts are disjoint, and
    merging puts the whole boundary together. -/
theorem scans_of_build (built : build p g = .ok graph) (primary secondary : IdSet) :
    ∃ own : Fin graph.shards.length → IdPairSet,
      (∀ i, scan (graph.shards.get i) primary secondary = .ok (own i)) ∧
      (∀ i order, (∀ id, id ∈ order ↔ id ∈ primary) →
        ∃ found, scanIn (graph.shards.get i) primary secondary order = .ok found ∧
          found.toList = (own i).toList) ∧
      (∀ i edge, edge ∈ own i ↔ ∃ row ∈ g.edges, p.owner row.1 = .ok i.val ∧
        Cuts graph.registry primary secondary row edge) ∧
      (∀ i j edge, edge ∈ own i → edge ∈ own j → i = j) ∧
      ∀ c : Fin graph.shards.length, ∃ merged,
        unite c (own c) ((List.finRange graph.shards.length).map fun i => (own i).toList) = merged ∧
        (∀ edge, edge ∈ merged ↔
          ∃ row ∈ g.edges, Cuts graph.registry primary secondary row edge) ∧
        merged.size = ∑ i, (own i).size := by
  obtain ⟨own, scanned, anyOrder, found⟩ :=
    exists_scans (splits_of_build built) primary secondary
  have part (i : Fin graph.shards.length) (edge : GlobalId × GlobalId) :
      edge ∈ own i ↔ ∃ row ∈ g.edges, p.owner row.1 = .ok i.val ∧
        Cuts graph.registry primary secondary row edge := by
    rw [found, found_iff_cuts built]
  have disjoint (i j : Fin graph.shards.length) (edge : GlobalId × GlobalId)
      (inOne : edge ∈ own i) (inOther : edge ∈ own j) : i = j := by
    obtain ⟨row, -, owner, cuts⟩ := (part i edge).mp inOne
    obtain ⟨row', -, owner', cuts'⟩ := (part j edge).mp inOther
    exact Fin.ext (cuts_unique built owner cuts owner' cuts')
  refine ⟨own, scanned, anyOrder, part, disjoint, fun c => ⟨_, rfl, fun edge => ?_, ?_⟩⟩
  · rw [mem_unite, ← exists_cuts_iff built]
    exact exists_congr fun i => part i edge
  · exact size_eq_sum (fun edge => mem_unite own c) disjoint

/-- Two vertices on two shards: the edge is found on the shard of its source and on no other, and an
    id that calls no vertex makes no difference. -/
theorem scans_of_build_two_shards :
    let p : Placement := .listed 2 [(.number 1, 1), (.text "a", 0)]
    let g : Digraph := ⟨[], [(.number 1, .text "a"), (.number 1, .text "a")]⟩
    ∃ graph source target, build p g = .ok graph ∧ graph.registry.id? (.number 1) = some source ∧
      graph.registry.id? (.text "a") = some target ∧
      ∀ i (h : i < graph.shards.length), ∃ found,
        scan graph.shards[i] (.ofList [source, 7]) (.ofList [target]) = .ok found ∧
          ((source, target) ∈ found ↔ i = 1) := by
  intro p g
  obtain ⟨graph, built⟩ := exists_build (p := p) (g := g) (by decide) (by decide) (by decide)
  have splits := splits_of_build built
  have known (name : VertexName) (mentioned : name ∈ g.mentions) :=
    Option.isSome_iff_exists.mp ((splits.known name).mpr mentioned)
  obtain ⟨source, hs⟩ := known (.number 1) (by decide)
  obtain ⟨target, ht⟩ := known (.text "a") (by decide)
  obtain ⟨own, scanned, -, part, -, -⟩ :=
    scans_of_build built (.ofList [source, 7]) (.ofList [target])
  have owner : p.owner (.number 1) = .ok 1 := by
    rw [Placement.owner_eq_ownerOf (by decide), Placement.ownerOf_listed]
    decide
  refine ⟨graph, source, target, built, hs, ht, fun i hi => ⟨own ⟨i, hi⟩, scanned ⟨i, hi⟩, ?_⟩⟩
  rw [part]
  constructor
  · rintro ⟨row, hrow, here, -⟩
    obtain rfl : row = (.number 1, .text "a") := by simpa [g] using hrow
    exact Except.ok.inj (here.symm.trans owner)
  · rintro rfl
    refine ⟨_, List.mem_cons_self, owner, hs, ht, by simp, ?_⟩
    simp [Std.TreeSet.isEmpty_iff_forall_not_mem]

end ShardedGraph

end ShardCut
