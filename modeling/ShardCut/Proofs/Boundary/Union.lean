import Mathlib.Data.Fin.VecNotation
import Mathlib.Logic.Equiv.Defs
import ShardCut.Proofs.Boundary.Merge
import ShardCut.Proofs.Mesh.Bytes
import ShardCut.Proofs.Workers.Rounds

/-!
The union of the contributions. A merge is a part of one round in which nobody stops, so no worker
is ever lost. Whatever the workers contribute, and whoever of them is slow or leaves at once, the
coordinator comes to the union of all, and the others come to nothing. Who contributed which set
does not show in it, and neither does the codec, as long as it restores the sets.

Main definitions: `unionOf`, `mergePart`, `Merged`. Main results: `merge_eq_program`,
`merged_of_reaches`, `merge_correct`.
-/

namespace ShardCut

namespace Boundary

variable {M : Type} {n : Nat} {codec : Codec M IdPairs} {own : Fin n → IdPairSet}
  {coordinator : Nat} {edge : GlobalId × GlobalId}

/-- The edges that some worker contributes. -/
def unionOf (own : Fin n → IdPairSet) : IdPairSet :=
  .ofList ((List.finRange n).flatMap fun worker => (own worker).toList)

/-- The union holds the edges of all workers. -/
theorem mem_unionOf : edge ∈ unionOf own ↔ ∃ worker, edge ∈ own worker := by
  simp [unionOf]

/-- It makes no difference which worker contributes which of the sets. -/
theorem mem_unionOf_comp (σ : Equiv.Perm (Fin n)) :
    edge ∈ unionOf (fun worker => own (σ worker)) ↔ edge ∈ unionOf own := by
  rw [mem_unionOf, mem_unionOf]
  exact (σ.surjective.exists (p := fun worker => edge ∈ own worker)).symm

/-- Edges travel in every round. -/
def edgeTraffic (codec : Codec M IdPairs) : Traffic M where
  Value _ := IdPairs
  codec _ := codec

/-- The part of a worker in a merge: it contributes its set and never stops by itself. -/
def mergePart (codec : Codec M IdPairs) (coordinator self : Nat) (own : IdPairSet) :
    (edgeTraffic codec).Part (Option IdPairSet) where
  value _ _ := own.toList
  output history := mergedAt coordinator self own (history 0)
  stop? _ _ := none

/-- A merge is a part of one round. -/
theorem merge_eq_program (self : Fin n) (own : IdPairSet) :
    merge codec coordinator self own = (mergePart codec coordinator self own).program 1 self := by
  rw [Traffic.Part.program, Traffic.Part.programFrom_succ rfl]
  refine congrArg (_ >>= ·) (funext fun gathered => ?_)
  rw [Traffic.Part.programFrom_zero rfl]
  rfl

/-- The workers that merge their sets. -/
def mergeMesh (codec : Codec M IdPairs) (coordinator : Nat) (own : Fin n → IdPairSet) :
    Mesh n M (Option IdPairSet) :=
  .start fun worker => merge codec coordinator worker (own worker)

/-- What a worker has merged: the coordinator has the union, and the others have nothing. -/
def Merged (coordinator : Nat) (own : Fin n → IdPairSet) (worker : Fin n)
    (merged? : Option IdPairSet) : Prop :=
  merged?.map Std.TreeSet.toList =
    if worker = coordinator then some (unionOf own).toList else none

/-- The union of the coordinator is that of all sets, in whichever order they were gathered. -/
theorem merged_mergedAt (own : Fin n → IdPairSet) (worker : Fin n) :
    Merged coordinator own worker (mergedAt coordinator worker (own worker)
      ((List.finRange n).map fun worker => (own worker).toList)) := by
  unfold Merged mergedAt
  split
  · next same =>
    subst same
    apply congrArg some
    apply toList_eq_of_mem_iff
    intro edge
    rw [mem_unite, mem_unionOf]
  · rfl

/-- In every interleaving every worker returns, the coordinator with the union of what all of them
    contribute and the others with nothing. -/
theorem merged_of_reaches (restored : ∀ worker, codec.Restores (own worker).toList)
    {m : Mesh n M (Option IdPairSet)} (run : (mergeMesh codec coordinator own).Reaches m) :
    ¬m.Stuck ∧ m.run.Finished ∧ ∀ worker ending, m.ending? worker = some ending →
      ∃ merged?, ending = .returned merged? ∧ Merged coordinator own worker merged? := by
  let parts : Fin n → (edgeTraffic codec).Part (Option IdPairSet) :=
    fun worker => mergePart codec coordinator worker (own worker)
  have start : mergeMesh codec coordinator own = Traffic.partsMesh parts 1 :=
    congrArg Mesh.start (funext fun worker => merge_eq_program worker (own worker))
  rw [start] at run
  have restores : Traffic.Restored parts 1 := fun worker _ _ => restored worker
  obtain ⟨unstuck, finished, endings⟩ := Traffic.endings_of_parts restores run
  refine ⟨unstuck, finished, fun worker ending left => ?_⟩
  cases endings worker ending left with
  | kept least =>
    exact ⟨_, Traffic.endingOf_of_none rfl, merged_mergedAt own worker⟩
  | lost peer fewer =>
    obtain ⟨k, fewer⟩ := fewer
    rw [Traffic.entered_of_none (i := k) rfl, Traffic.entered_of_none (i := worker) rfl] at fewer
    exact (Nat.lt_irrefl _ fewer).elim

/-- Workers that merge any sets, which their codec restores, come to an end in every interleaving,
    and none of them fails. The coordinator returns the union of all sets, in ascending order, and
    the others return nothing; without a coordinator among the workers nobody returns a set. The
    union is the same whoever of the workers contributes which of the sets. -/
theorem merge_correct (coordinator : Nat) (own : Fin n → IdPairSet)
    (restored : ∀ worker, codec.Restores (own worker).toList) :
    ∃ union : IdPairSet, (∀ edge, edge ∈ union ↔ ∃ worker, edge ∈ own worker) ∧
      union.toList.Pairwise (fun a b => a.1 < b.1 ∨ a.1 = b.1 ∧ a.2 < b.2) ∧
      ∀ (σ : Equiv.Perm (Fin n)) (m : Mesh n M (Option IdPairSet)),
        (mergeMesh codec coordinator fun worker => own (σ worker)).Reaches m →
          ¬m.Stuck ∧ m.run.Finished ∧ ∀ worker ending, m.ending? worker = some ending →
            ∃ merged?, ending = .returned merged? ∧ merged?.map Std.TreeSet.toList =
              if worker = coordinator then some union.toList else none := by
  refine ⟨unionOf own, fun edge => mem_unionOf, pairwise_toList _, fun σ m run => ?_⟩
  rw [← toList_eq_of_mem_iff fun edge => mem_unionOf_comp σ]
  exact merged_of_reaches (fun worker => restored (σ worker)) run

/-- Three workers with overlapping sets, one of them empty, as bytes. The second one is the
    coordinator. -/
theorem merge_correct_three :
    let own : Fin 3 → IdPairSet :=
      ![IdPairSet.ofList [(7, 1), (2, 9)], IdPairSet.ofList [(7, 1), (0, 3)], ∅]
    let m := (mergeMesh .edges 1 own).run
    (∀ worker, Codec.edges.Restores (own worker).toList) ∧ (mergeMesh .edges 1 own).Reaches m ∧
    ∀ worker ending, m.ending? worker = some ending →
      ∃ merged?, ending = .returned merged? ∧ merged?.map Std.TreeSet.toList =
        if worker = 1 then some [(0, 3), (2, 9), (7, 1)] else none := by
  intro own m
  have short : ∀ worker, (own worker).toList.length ≤ 2 := by decide +kernel
  have restored (worker : Fin 3) : Codec.edges.Restores (own worker).toList :=
    Codec.carries_edges (by decide) _ (short worker)
  obtain ⟨union, mem, -, merged⟩ := merge_correct 1 own restored
  have listed : union.toList = [(0, 3), (2, 9), (7, 1)] := by
    calc union.toList = (IdPairSet.ofList [(0, 3), (2, 9), (7, 1)]).toList := by
          apply toList_eq_of_mem_iff
          intro edge
          simp only [mem, own, Fin.exists_fin_succ, IdPairSet.mem_ofList]
          simp
          tauto
      _ = [(0, 3), (2, 9), (7, 1)] := by decide +kernel
  obtain ⟨-, -, endings⟩ := merged (Equiv.refl _) m (Mesh.reaches_run _)
  refine ⟨restored, Mesh.reaches_run _, fun worker ending left => ?_⟩
  obtain ⟨merged?, returned, same⟩ := endings worker ending left
  rw [listed] at same
  exact ⟨merged?, returned, by simpa [Fin.ext_iff] using same⟩

end Boundary

end ShardCut
