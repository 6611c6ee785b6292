import Mathlib.Data.Nat.Find
import ShardCut.Proofs.Workers.Settle

/-!
Whose failure is reported. The reports can be settled in one pass, which keeps the outputs and the
failure to blame so far: the first one, until one comes that is no loss of contact. So the outputs
are given back only if every worker has one, and otherwise the first worker is blamed that failed
for a reason of its own, or the first one of all if none did.

Main definitions: `Tally`, `Blamed`. Main results: `outcome_foldl_add`, `outputs_or_blamed`,
`settle_correct`.
-/

namespace ShardCut

namespace Report

variable {α : Type} {reports done : List (Report α)} {worker : Nat} {failure : Failure}

/-! ### One pass -/

/-- What a pass over the reports keeps: the outputs, and the failure to blame so far. -/
structure Tally (α : Type) where
  outputs : List α
  blamed? : Option Failure

/-- Whether a failure takes the place of the one that is blamed so far. Only a loss of contact gives
    way, and not to another one. -/
def Replaces (failure : Failure) : Option Failure → Prop
  | none => True
  | some blamed => blamed.IsCommunication ∧ ¬failure.IsCommunication

instance (failure : Failure) : DecidablePred (Replaces failure)
  | none => isTrue trivial
  | some blamed => inferInstanceAs (Decidable (blamed.IsCommunication ∧ ¬failure.IsCommunication))

namespace Tally

/-- Nothing is kept before the first report. -/
def start : Tally α := ⟨[], none⟩

/-- Takes one more report in. Outputs are kept even if a worker has failed before. -/
def add (t : Tally α) : Report α → Tally α
  | .ok output => { t with outputs := t.outputs ++ [output] }
  | .error failure => if Replaces failure t.blamed? then { t with blamed? := some failure } else t

/-- What comes out at the end of the pass. -/
def outcome (t : Tally α) : Except Failure (List α) :=
  match t.blamed? with
  | some failure => .error failure
  | none => .ok t.outputs

/-- What is kept after these reports. -/
structure Holds (t : Tally α) (done : List (Report α)) : Prop where
  outputs : t.outputs = done.filterMap output?
  blamed : t.blamed? = blame? (done.filterMap failure?)

end Tally

/-- If all failures are losses of contact, the first one is to blame. -/
theorem blame?_of_symptoms {failures : List Failure}
    (symptoms : ∀ f ∈ failures, f.IsCommunication) : blame? failures = failures.head? := by
  rw [blame?, find?_of_symptoms symptoms, Option.none_or]

/-- One more failure is to blame if it replaces the one that was to blame without it. -/
theorem blame?_concat (failures : List Failure) (failure : Failure) :
    blame? (failures ++ [failure]) =
      if Replaces failure (blame? failures) then some failure else blame? failures := by
  -- A cause that was found is never replaced; without one the first symptom is blamed so far.
  cases hfind : failures.find? (fun f => ¬f.IsCommunication) with
  | some own =>
    have hown : ¬own.IsCommunication := by simpa using List.find?_some hfind
    have blamed : blame? failures = some own := by rw [blame?, hfind, Option.some_or]
    rw [blamed, if_neg fun h => hown h.1, blame?, List.find?_append, hfind, Option.some_or,
      Option.some_or]
  | none =>
    have symptoms : ∀ f ∈ failures, f.IsCommunication := by
      simpa [List.find?_eq_none] using hfind
    rw [blame?_of_symptoms symptoms, blame?, List.find?_append, hfind, Option.none_or]
    cases failures with
    | nil => by_cases symptom : failure.IsCommunication <;> simp [Replaces, symptom]
    | cons first failures =>
      have lost := symptoms first List.mem_cons_self
      by_cases symptom : failure.IsCommunication <;> simp [Replaces, symptom, lost]

namespace Tally

variable {t : Tally α}

theorem filterMap_failure?_ok (output : α) :
    [(.ok output : Report α)].filterMap failure? = [] := rfl

theorem filterMap_failure?_error (failure : Failure) :
    [(.error failure : Report α)].filterMap failure? = [failure] := rfl

theorem filterMap_output?_error (failure : Failure) :
    [(.error failure : Report α)].filterMap output? = [] := rfl

theorem holds_start : (start : Tally α).Holds [] := ⟨rfl, rfl⟩

/-- One more report keeps the tally right. -/
theorem Holds.add (h : t.Holds done) (report : Report α) :
    (t.add report).Holds (done ++ [report]) := by
  cases report with
  | ok output =>
    constructor
    · rw [List.filterMap_append, ← h.outputs]
      rfl
    · rw [List.filterMap_append, filterMap_failure?_ok, List.append_nil, ← h.blamed]
      rfl
  | error failure =>
    constructor
    · rw [List.filterMap_append, filterMap_output?_error, List.append_nil, ← h.outputs, Tally.add]
      split <;> rfl
    · rw [List.filterMap_append, filterMap_failure?_error, blame?_concat, ← h.blamed, Tally.add]
      split <;> rfl

/-- One report after the other is counted. -/
theorem Holds.addAll (h : t.Holds done) (rest : List (Report α)) :
    (rest.foldl Tally.add t).Holds (done ++ rest) := by
  induction rest generalizing t done with
  | nil => rwa [List.append_nil]
  | cons report rest ih =>
    rw [List.append_cons]
    exact ih (h.add report)

theorem Holds.outcome_eq (h : t.Holds done) : t.outcome = settle done := by
  cases blamed : blame? (done.filterMap failure?) with
  | none => simp only [outcome, settle, h.blamed, h.outputs, blamed]
  | some failure => simp only [outcome, settle, h.blamed, blamed]

/-- One pass over the reports settles them. -/
theorem outcome_foldl_add (reports : List (Report α)) :
    (reports.foldl add start).outcome = settle reports :=
  (holds_start.addAll reports).outcome_eq

end Tally

/-! ### The worker to blame -/

/-- A worker that failed, and why. -/
def Fails (reports : List (Report α)) (worker : Nat) (failure : Failure) : Prop :=
  reports[worker]? = some (.error failure)

/-- The worker with the failure that is reported: the first one that failed for a reason of its own,
    or, if all failures are losses of contact, the first one that failed. -/
inductive Blamed (reports : List (Report α)) (worker : Nat) (failure : Failure) : Prop where
  | cause (fails : Fails reports worker failure) (own : ¬failure.IsCommunication)
      (first : ∀ earlier < worker, ∀ f, Fails reports earlier f → f.IsCommunication)
  | symptom (fails : Fails reports worker failure)
      (symptoms : ∀ other f, Fails reports other f → f.IsCommunication)
      (first : ∀ earlier < worker, ∀ f, ¬Fails reports earlier f)

/-- The reports before a worker that failed, its own, and those behind it. -/
theorem Fails.exists_split (fails : Fails reports worker failure) :
    ∃ before after, reports = before ++ .error failure :: after ∧
      ∀ f, .error f ∈ before → ∃ earlier < worker, Fails reports earlier f := by
  obtain ⟨lt, here⟩ := List.getElem?_eq_some_iff.mp fails
  refine ⟨reports.take worker, reports.drop (worker + 1), ?_, fun f mem => ?_⟩
  · rw [← here, List.getElem_cons_drop, List.take_append_drop]
  · obtain ⟨earlier, before, there⟩ := List.mem_take_iff_getElem.mp mem
    exact ⟨earlier, by omega, List.getElem?_eq_some_iff.mpr ⟨by omega, there⟩⟩

/-- If all failures are losses of contact, the first one is reported. -/
theorem settle_symptoms {before after : List (Report α)} (succeeded : ∀ f, .error f ∉ before)
    (symptoms : ∀ f, .error f ∈ before ++ .error failure :: after → f.IsCommunication) :
    settle (before ++ .error failure :: after) = .error failure := by
  have none : before.filterMap failure? = [] :=
    List.eq_nil_iff_forall_not_mem.mpr fun f mem => succeeded f (error_mem_of_mem_failures mem)
  have failures : (before ++ .error failure :: after).filterMap failure? =
      failure :: after.filterMap failure? := by
    rw [List.filterMap_append, none, List.filterMap_cons]
    rfl
  have blamed : blame? ((before ++ .error failure :: after).filterMap failure?) = some failure := by
    rw [blame?_of_symptoms fun f mem => symptoms f (error_mem_of_mem_failures mem), failures,
      List.head?_cons]
  rw [settle, blamed]

/-- The worker to blame gives the outcome. -/
theorem settle_of_blamed (h : Blamed reports worker failure) : settle reports = .error failure := by
  cases h with
  | cause fails own first =>
    obtain ⟨before, after, split, before_fails⟩ := fails.exists_split
    rw [split]
    refine settle_append (fun f mem => ?_) own
    obtain ⟨earlier, lt, there⟩ := before_fails f mem
    exact first earlier lt f there
  | symptom fails symptoms first =>
    obtain ⟨before, after, split, before_fails⟩ := fails.exists_split
    rw [split]
    refine settle_symptoms (fun f mem => ?_) (fun f mem => ?_)
    · obtain ⟨earlier, lt, there⟩ := before_fails f mem
      exact first earlier lt f there
    · rw [← split] at mem
      obtain ⟨other, there⟩ := List.mem_iff_getElem?.mp mem
      exact symptoms other f there

open scoped Classical in
/-- Of the workers whose failures are of some kind, there is a first one. -/
theorem exists_first_failure {kind : Failure → Prop}
    (h : ∃ worker failure, Fails reports worker failure ∧ kind failure) :
    ∃ worker failure, Fails reports worker failure ∧ kind failure ∧
      ∀ earlier < worker, ∀ f, Fails reports earlier f → ¬kind f := by
  obtain ⟨failure, fails, ofKind⟩ := Nat.find_spec h
  refine ⟨Nat.find h, failure, fails, ofKind, fun earlier lt f there ofKind' => ?_⟩
  exact Nat.find_min h lt ⟨f, there, ofKind'⟩

/-- If a worker has failed, one is to blame. -/
theorem exists_blamed (fails : Fails reports worker failure) :
    ∃ worker failure, Blamed reports worker failure := by
  by_cases h : ∃ w f, Fails reports w f ∧ ¬f.IsCommunication
  · obtain ⟨w, f, there, own, first⟩ := exists_first_failure h
    refine ⟨w, f, .cause there own fun earlier lt g g_fails => ?_⟩
    exact Decidable.not_not.mp (first earlier lt g g_fails)
  · have some_failure : ∃ w f, Fails reports w f ∧ True := ⟨worker, failure, fails, trivial⟩
    obtain ⟨w, f, there, -, first⟩ := exists_first_failure some_failure
    refine ⟨w, f, .symptom there (fun other g g_fails => ?_) fun earlier lt g g_fails => ?_⟩
    · by_contra own
      exact h ⟨other, g, g_fails, own⟩
    · exact first earlier lt g g_fails trivial

/-- Where no worker has failed, every report is an output. -/
theorem exists_outputs (none : ∀ worker failure, ¬Fails reports worker failure) :
    ∃ outputs : List α, reports = outputs.map .ok := by
  induction reports with
  | nil => exact ⟨[], rfl⟩
  | cons report reports ih =>
    obtain ⟨outputs, rfl⟩ := ih fun worker failure fails => none (worker + 1) failure fails
    cases report with
    | ok output => exact ⟨output :: outputs, rfl⟩
    | error failure => exact (none 0 failure rfl).elim

/-- All workers have outputs, or one is to blame. -/
theorem outputs_or_blamed (reports : List (Report α)) :
    (∃ outputs : List α, reports = outputs.map .ok) ∨
      ∃ worker failure, Blamed reports worker failure := by
  by_cases h : ∃ worker failure, Fails reports worker failure
  · obtain ⟨worker, failure, fails⟩ := h
    exact .inr (exists_blamed fails)
  · exact .inl (exists_outputs fun worker failure fails => h ⟨worker, failure, fails⟩)

/-- How reports are settled, in one pass or not. The outputs are given back, all of them and by
    worker, exactly if every worker has one. Otherwise it is the failure of the worker to blame, and
    nothing of the outputs. -/
theorem settle_correct (reports : List (Report α)) :
    (reports.foldl Tally.add .start).outcome = settle reports ∧
    (∀ outputs, settle reports = .ok outputs ↔ reports = outputs.map .ok) ∧
    ∀ failure, settle reports = .error failure ↔ ∃ worker, Blamed reports worker failure := by
  refine ⟨Tally.outcome_foldl_add reports, fun outputs => ⟨fun settled => ?_, ?_⟩,
    fun failure => ⟨fun settled => ?_, ?_⟩⟩
  · rcases outputs_or_blamed reports with ⟨outputs', rfl⟩ | ⟨worker, failure, blamed⟩
    · rw [settle_outputs] at settled
      rw [Except.ok.inj settled]
    · rw [settle_of_blamed blamed] at settled
      cases settled
  · rintro rfl
    exact settle_outputs outputs
  · rcases outputs_or_blamed reports with ⟨outputs, rfl⟩ | ⟨worker, failure', blamed⟩
    · rw [settle_outputs] at settled
      cases settled
    · rw [settle_of_blamed blamed] at settled
      obtain rfl := Except.error.inj settled
      exact ⟨worker, blamed⟩
  · rintro ⟨worker, blamed⟩
    exact settle_of_blamed blamed

end Report

end ShardCut
