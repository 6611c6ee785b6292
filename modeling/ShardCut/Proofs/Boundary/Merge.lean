import Mathlib.Data.List.FinRange
import ShardCut.Boundary.Encode
import ShardCut.Boundary.Merge
import ShardCut.Proofs.Shard

/-!
What the coordinator makes of the contributions. It leaves out the gathered copy of its own set,
which it has already, so its union holds the edges of all workers. Of edges between ids of the
registry the matrix has one row each, in their order.

Main definitions: `Names`. Main results: `mem_unite`, `exists_encode`, `mem_rows_iff`.
-/

namespace ShardCut

namespace Boundary

variable {coordinator : Nat} {edge : GlobalId × GlobalId}

/-- The edges of a set are listed in ascending order. -/
theorem pairwise_toList (edges : IdPairSet) :
    edges.toList.Pairwise fun a b => a.1 < b.1 ∨ a.1 = b.1 ∧ a.2 < b.2 :=
  Std.TreeSet.ordered_toList.imp fun h => comparePairs_eq_lt.mp h

/-- No edge of a set is listed twice. -/
theorem nodup_toList (edges : IdPairSet) : edges.toList.Nodup := by
  apply Std.TreeSet.distinct_toList.imp
  intro a b distinct same
  apply distinct
  rw [same]
  exact Std.ReflCmp.compare_self

/-- Sets with the same edges list them in the same order. -/
theorem toList_eq_of_mem_iff {edges edges' : IdPairSet}
    (same : ∀ edge, edge ∈ edges ↔ edge ∈ edges') : edges.toList = edges'.toList :=
  (Std.TreeSet.Equiv.of_forall_mem_iff same).toList_eq

/-- What is merged are the edges of the own set and of all contributions but the coordinator's. -/
theorem mem_foldl_insert (contributions : List (IdPairs × Nat)) (own : IdPairSet) :
    edge ∈ contributions.foldl (fun merged (edges, worker) =>
        if worker = coordinator then merged else merged.insertMany edges) own ↔
      edge ∈ own ∨ ∃ entry ∈ contributions, entry.2 ≠ coordinator ∧ edge ∈ entry.1 := by
  induction contributions generalizing own with
  | nil => simp
  | cons entry contributions ih =>
    rw [List.foldl_cons, ih]
    by_cases hc : entry.2 = coordinator
    · simp [hc]
    · simp [hc, Std.TreeSet.mem_insertMany_list, or_assoc]

/-- The coordinator's union of what all workers contributed. -/
theorem mem_unite {n : Nat} (own : Fin n → IdPairSet) (coordinator : Fin n) :
    edge ∈ unite coordinator (own coordinator)
        ((List.finRange n).map fun worker => (own worker).toList) ↔
      ∃ worker, edge ∈ own worker := by
  rw [unite, mem_foldl_insert]
  constructor
  · intro given
    rcases given with mem | ⟨entry, hentry, -, mem⟩
    · exact ⟨coordinator, mem⟩
    · have gathered := List.mem_of_getElem? (List.mem_zipIdx_iff_getElem?.mp hentry)
      obtain ⟨worker, -, hw⟩ := List.mem_map.mp gathered
      rw [← hw, Std.TreeSet.mem_toList] at mem
      exact ⟨worker, mem⟩
  · intro given
    rcases given with ⟨worker, mem⟩
    by_cases hw : worker = coordinator
    · exact .inl (hw ▸ mem)
    · refine .inr ⟨((own worker).toList, worker), ?_, fun h => hw (Fin.ext h),
        Std.TreeSet.mem_toList.mpr mem⟩
      rw [List.mem_zipIdx_iff_getElem?]
      simp

variable {shard : Shard} {r : Registry}

/-- A row names the ends of an edge. -/
def Names (r : Registry) (edge : GlobalId × GlobalId) (row : VertexName × VertexName) : Prop :=
  r.id? row.1 = some edge.1 ∧ r.id? row.2 = some edge.2

theorem exists_rowOf (registry : shard.registry = r) (coherent : r.Coherent) (room : r.Fits)
    (called : r.Calls edge.1 ∧ r.Calls edge.2) :
    ∃ row, rowOf shard edge = .ok row ∧ Names r edge row := by
  have named {id : GlobalId} {name : VertexName} (hn : r.id? name = some id) :
      nameOf shard id = .ok name := by
    rw [nameOf, Shard.nameOfId?, registry, (coherent.name?_eq_some_iff_id? room).mpr hn]
  obtain ⟨⟨source, hs⟩, ⟨target, ht⟩⟩ := called
  refine ⟨(source, target), ?_, hs, ht⟩
  rw [rowOf, named hs, named ht]
  rfl

/-- Edges between ids of the registry can be encoded. -/
theorem exists_encode (registry : shard.registry = r) (coherent : r.Coherent) (room : r.Fits)
    (edges : IdPairSet) (called : ∀ edge ∈ edges, r.Calls edge.1 ∧ r.Calls edge.2) :
    ∃ rows, encode shard edges = .ok (.ofRows rows) ∧
      List.Forall₂ (Names r) edges.toList rows := by
  obtain ⟨rows, named, each⟩ := exists_mapM_eq_ok edges.toList fun edge hedge =>
    exists_rowOf registry coherent room (called edge (Std.TreeSet.mem_toList.mp hedge))
  refine ⟨rows, ?_, each⟩
  rw [encode, named]
  rfl

/-- Ids belong to one name each, so the rows are those that name some edge. -/
theorem mem_rows_iff (coherent : r.Coherent) (room : r.Fits)
    {edges : List (GlobalId × GlobalId)} {rows : List (VertexName × VertexName)}
    (each : List.Forall₂ (Names r) edges rows) {row : VertexName × VertexName} :
    row ∈ rows ↔ ∃ edge ∈ edges, Names r edge row := by
  induction each with
  | nil => simp
  | @cons edge row' edges rows named _ ih =>
    have same : row = row' ↔ Names r edge row := by
      constructor
      · rintro rfl
        exact named
      · intro given
        rcases given with ⟨hs, ht⟩
        exact Prod.ext (coherent.id?_inj room hs named.1) (coherent.id?_inj room ht named.2)
    simp only [List.mem_cons, exists_eq_or_imp, same, ih]

end Boundary

end ShardCut
