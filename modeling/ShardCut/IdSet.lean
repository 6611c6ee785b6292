import ShardCut.GlobalId
import ShardCut.Name

/-!
Ordered sets of global ids and of pairs of them. Both are listed in ascending order, pairs by source
and then by target.

Main definitions: `IdSet`, `IdPairs`, `IdPairSet`. Main results: `comparePairs_eq_lt`.
-/

namespace ShardCut

/-- A set of ids. -/
abbrev IdSet := Std.TreeSet GlobalId

/-- Edges between ids, in a row. -/
abbrev IdPairs := List (GlobalId × GlobalId)

/-- A set of edges between ids. -/
abbrev IdPairSet := Std.TreeSet (GlobalId × GlobalId) comparePairs

def IdSet.ofList (ids : List GlobalId) : IdSet := Std.TreeSet.ofList ids

def IdPairSet.ofList (edges : List (GlobalId × GlobalId)) : IdPairSet :=
  Std.TreeSet.ofList edges comparePairs

@[simp] theorem IdSet.mem_ofList {ids : List GlobalId} {id : GlobalId} :
    id ∈ IdSet.ofList ids ↔ id ∈ ids := by
  rw [IdSet.ofList, Std.TreeSet.mem_ofList, List.contains_iff_mem]

@[simp] theorem IdPairSet.mem_ofList {edges : List (GlobalId × GlobalId)}
    {edge : GlobalId × GlobalId} : edge ∈ IdPairSet.ofList edges ↔ edge ∈ edges := by
  rw [IdPairSet.ofList, Std.TreeSet.mem_ofList, List.contains_iff_mem]

/-- Pairs of ids are ordered by source, then by target. -/
theorem comparePairs_eq_lt {a b : GlobalId × GlobalId} :
    comparePairs a b = .lt ↔ a.1 < b.1 ∨ a.1 = b.1 ∧ a.2 < b.2 := by
  rw [comparePairs_eq_then, Ordering.then_eq_lt, Std.compare_eq_lt, Std.compare_eq_lt,
    Std.LawfulEqOrd.compare_eq_iff_eq]

end ShardCut
