import ShardCut.Proofs.Mesh.Accord
import ShardCut.Workers

/-!
How reports are settled. If no worker has failed, the outputs of all are given back by worker. The
failure of a worker is blamed if it is no loss of contact and all failures of earlier workers are.
So the outcome of an app is known once it is known how its workers end.

Main results: `settle_append`, `settle_reports_of_returned`, `settle_reports_of_first`.
-/

namespace ShardCut

variable {α : Type}

namespace Report

theorem settle_outputs (outputs : List α) : settle (outputs.map .ok) = .ok outputs := by
  have hfail : (outputs.map (.ok : α → Report α)).filterMap failure? = [] := by
    simp [List.filterMap_map, Function.comp_def, failure?]
  have hout : (outputs.map (.ok : α → Report α)).filterMap output? = outputs := by
    simp [List.filterMap_map, Function.comp_def, output?]
  rw [settle, hfail, hout]
  rfl

theorem find?_of_symptoms {failures : List Failure}
    (symptoms : ∀ f ∈ failures, f.IsCommunication) :
    failures.find? (fun f => ¬f.IsCommunication) = none := by
  simpa [List.find?_eq_none] using symptoms

theorem blame?_append {before after : List Failure} {failure : Failure}
    (symptoms : ∀ f ∈ before, f.IsCommunication) (own : ¬failure.IsCommunication) :
    blame? (before ++ failure :: after) = some failure := by
  rw [blame?, List.find?_append, find?_of_symptoms symptoms]
  simp [own]

theorem error_mem_of_mem_failures {reports : List (Report α)} {failure : Failure}
    (h : failure ∈ reports.filterMap failure?) : .error failure ∈ reports := by
  obtain ⟨report, mem, same⟩ := List.mem_filterMap.mp h
  cases report with
  | ok output => cases same
  | error failure' =>
    cases same
    exact mem

/-- The first failure that is no loss of contact is the outcome. -/
theorem settle_append {before after : List (Report α)} {failure : Failure}
    (symptoms : ∀ f, .error f ∈ before → f.IsCommunication) (own : ¬failure.IsCommunication) :
    settle (before ++ .error failure :: after) = .error failure := by
  have hbefore : ∀ f ∈ before.filterMap failure?, f.IsCommunication :=
    fun f hf => symptoms f (error_mem_of_mem_failures hf)
  have hblame : blame? ((before ++ .error failure :: after).filterMap failure?) = some failure := by
    rw [List.filterMap_append, List.filterMap_cons]
    exact blame?_append hbefore own
  rw [settle, hblame]

end Report

namespace Mesh

variable {n : Nat} {M : Type} {m : Mesh n M α}

/-- If all workers return, the outcome is the list of their outputs. -/
theorem settle_reports_of_returned {output : Fin n → α}
    (h : ∀ i, m.ending? i = some (.returned (output i))) :
    Report.settle m.reports = .ok ((List.finRange n).map output) := by
  have hreports : m.reports = ((List.finRange n).map output).map .ok := by
    rw [reports, List.map_map]
    exact List.map_congr_left fun i _ => by rw [h i]; rfl
  rw [hreports, Report.settle_outputs]

/-- The first worker that failed for a reason of its own is the one to blame. -/
theorem settle_reports_of_first {i : Fin n} {failure : Failure}
    (fails : Report.ofEnding i (m.ending? i) = .error failure) (own : ¬failure.IsCommunication)
    (first : ∀ j < i, ∀ f, Report.ofEnding j (m.ending? j) = .error f → f.IsCommunication) :
    Report.settle m.reports = .error failure := by
  obtain ⟨before, after, hsplit⟩ := List.append_of_mem (List.mem_finRange i)
  have hbefore : ∀ j ∈ before, j < i := by
    have hsorted := List.pairwise_lt_finRange n
    rw [hsplit, List.pairwise_append] at hsorted
    exact fun j hj => hsorted.2.2 j hj i List.mem_cons_self
  have hreports : m.reports =
      (before.map fun j : Fin n => Report.ofEnding j (m.ending? j)) ++
        .error failure :: after.map fun j : Fin n => Report.ofEnding j (m.ending? j) := by
    rw [reports, hsplit, List.map_append, List.map_cons, fails]
  rw [hreports]
  refine Report.settle_append (fun f hf => ?_) own
  obtain ⟨j, hj, hjf⟩ := List.mem_map.mp hf
  exact first j (hbefore j hj) f hjf

end Mesh

end ShardCut
