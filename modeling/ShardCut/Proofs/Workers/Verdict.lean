import Mathlib.Data.Finset.Max
import Mathlib.Order.Fin.Basic
import Mathlib.Data.Fintype.Basic
import ShardCut.Proofs.Workers.Rounds
import ShardCut.Proofs.Workers.Settle

/-!
The outcome of an app whose workers go in rounds. One worker that stops makes its peers lose
contact, and these their peers. All the same the outcome is one for all interleavings: the outputs
of all if none stops, and otherwise the failure of the first worker among those that stopped first.

Main definitions: `Traffic.Stops`, `Traffic.Verdict`. Main results: `Traffic.Verdict.unique`,
`Traffic.verdict_of_endings`, `ShardedGraph.verdict_of_parts`.
-/

namespace ShardCut

namespace Traffic

variable {n : Nat} {M α : Type} {t : Traffic M}

/-- A worker stops by itself before one of the collectives or after the last one, once all have
    gathered what comes before. -/
structure Stops (parts : Fin n → t.Part α) (rounds : Nat) (i : Fin n) (round : Nat) (stop : Stop) :
    Prop where
  round_le : round ≤ rounds
  eq_stop : (parts i).stop? round (gathered parts round) = some stop

/-- What comes of such workers: the outputs of all if none stops by itself, and otherwise the
    failure of the first worker among those that stop before the earliest collective. -/
inductive Verdict (parts : Fin n → t.Part α) (rounds : Nat) : Except Failure (List α) → Prop where
  | outputs (none : ∀ i round stop, ¬Stops parts rounds i round stop) :
      Verdict parts rounds
        (.ok ((List.finRange n).map fun i => (parts i).output (gathered parts rounds)))
  | blame {i : Fin n} {round : Nat} {stop : Stop} (stops : Stops parts rounds i round stop)
      (first : ∀ j round' stop', Stops parts rounds j round' stop' →
        round < round' ∨ round = round' ∧ i ≤ j) :
      Verdict parts rounds (.error (stop.failureOf i))

variable {parts : Fin n → t.Part α} {rounds : Nat}

/-- There is one verdict. -/
theorem Verdict.unique {outcome outcome' : Except Failure (List α)}
    (h : Verdict parts rounds outcome) (h' : Verdict parts rounds outcome') :
    outcome = outcome' := by
  cases h with
  | outputs none =>
    cases h' with
    | outputs none' => rfl
    | blame stops first => exact absurd stops (none _ _ _)
  | @blame i round stop stops first =>
    cases h' with
    | outputs none' => exact absurd stops (none' _ _ _)
    | @blame i' round' stop' stops' first' =>
      have le := first i' round' stop' stops'
      have ge := first' i round stop stops
      obtain rfl : round = round' := by omega
      obtain rfl : i = i' := by omega
      cases stops.eq_stop.symm.trans stops'.eq_stop
      rfl

/-- Nobody is blamed for the loss of a peer. -/
theorem Verdict.ne_communication {outcome : Except Failure (List α)}
    (h : Verdict parts rounds outcome) (worker : Nat) (fault : LinkFault) :
    outcome ≠ .error (.communication worker fault) := by
  cases h with
  | outputs none => nofun
  | @blame i round stop stops first =>
    intro heq
    have own := stop.failureOf_own i
    rw [Except.error.inj heq] at own
    exact own trivial

/-- If some worker stops by itself, one of them is the first: no other stops before an earlier
    collective, nor an earlier worker before the same one. -/
theorem exists_first_stop (h : ¬∀ i round stop, ¬Stops parts rounds i round stop) :
    ∃ i round stop, Stops parts rounds i round stop ∧
      ∀ j round' stop', Stops parts rounds j round' stop' →
        round < round' ∨ round = round' ∧ i ≤ j := by
  classical
  push Not at h
  obtain ⟨k, last, stop, stops⟩ := h
  have some_round : ∃ round i stop, Stops parts rounds i round stop := ⟨last, k, stop, stops⟩
  obtain ⟨round, ⟨k, stop, stops⟩, earliest⟩ :
      ∃ round, (∃ i stop, Stops parts rounds i round stop) ∧
        ∀ round', (∃ i stop, Stops parts rounds i round' stop) → round ≤ round' :=
    ⟨Nat.find some_round, Nat.find_spec some_round, fun _ => Nat.find_min' some_round⟩
  have nonempty : (Finset.univ.filter fun i => ∃ stop, Stops parts rounds i round stop).Nonempty :=
    ⟨k, by simpa using ⟨stop, stops⟩⟩
  obtain ⟨i, hi, least⟩ := Finset.exists_min_image _ id nonempty
  obtain ⟨stop, stops⟩ : ∃ stop, Stops parts rounds i round stop := by simpa using hi
  refine ⟨i, round, stop, stops, fun j round' stop' stops' => ?_⟩
  rcases Nat.lt_or_eq_of_le (earliest round' ⟨j, stop', stops'⟩) with later | rfl
  · exact .inl later
  · exact .inr ⟨rfl, least j (by simpa using ⟨stop', stops'⟩)⟩

/-- A worker that stops before its last collective does so after those that it enters. -/
theorem stops_of_stopAt? {i : Fin n} {stop : Stop}
    (stops : stopAt? parts i (entered parts rounds i) = some stop) :
    Stops parts rounds i (entered parts rounds i) stop := ⟨entered_le, stops⟩

variable {m : Mesh n M α}

/-- If no worker stops by itself, all return their outputs. -/
theorem settle_of_no_stop
    (h : ∀ i, ∃ ending, m.ending? i = some ending ∧ PartEnds parts rounds i ending)
    (none : ∀ i round stop, ¬Stops parts rounds i round stop) :
    Report.settle m.reports =
      .ok ((List.finRange n).map fun i => (parts i).output (gathered parts rounds)) := by
  have goesOn (i : Fin n) : stopAt? parts i (entered parts rounds i) = .none :=
    Option.eq_none_iff_forall_ne_some.mpr fun stop stops => none i _ stop (stops_of_stopAt? stops)
  apply Mesh.settle_reports_of_returned
  intro i
  obtain ⟨ending, hi, ends⟩ := h i
  rw [hi]
  cases ends with
  | kept least => rw [endingOf_of_none (goesOn i)]
  | lost peer fewer =>
    obtain ⟨k, hk⟩ := fewer
    rw [entered_of_none (goesOn k), entered_of_none (goesOn i)] at hk
    exact (Nat.lt_irrefl _ hk).elim

section FirstStop

variable {i : Fin n} {round : Nat} {stop : Stop} (stops : Stops parts rounds i round stop)
  (first : ∀ j round' stop', Stops parts rounds j round' stop' →
    round < round' ∨ round = round' ∧ i ≤ j)

include stops first

/-- No worker stops before the first stop of all. -/
theorem le_entered_of_first (k : Fin n) : round ≤ entered parts rounds k := by
  have le : entered parts rounds k ≤ rounds := entered_le
  rcases Nat.lt_or_eq_of_le le with less | all
  · obtain ⟨stop', stops'⟩ := exists_stop_of_entered_lt less
    rcases first k _ stop' (stops_of_stopAt? stops') with later | ⟨same, -⟩
    · exact Nat.le_of_lt later
    · exact Nat.le_of_eq same
  · rw [all]
    exact stops.round_le

theorem entered_of_first : entered parts rounds i = round :=
  Nat.le_antisymm (entered_le_of_stop stops.eq_stop) (le_entered_of_first stops first i)

/-- The first worker that stops by itself loses no peer on the way; every worker before it that
    fails has lost one. -/
theorem settle_of_first_stop
    (h : ∀ i, ∃ ending, m.ending? i = some ending ∧ PartEnds parts rounds i ending) :
    Report.settle m.reports = .error (stop.failureOf i) := by
  have here := entered_of_first stops first
  refine Mesh.settle_reports_of_first (i := i) ?_ (stop.failureOf_own i) fun j hj f hf => ?_
  · obtain ⟨ending, hi, ends⟩ := h i
    rw [hi]
    cases ends with
    | kept least =>
      have stops' : stopAt? parts i (entered parts rounds i) = some stop := here ▸ stops.eq_stop
      rw [endingOf_of_stop stops']
      exact stop.ofEnding_ending i
    | lost peer fewer =>
      obtain ⟨k, hk⟩ := fewer
      rw [here] at hk
      exact (Nat.not_lt_of_le (le_entered_of_first stops first k) hk).elim
  · obtain ⟨ending, hi, ends⟩ := h j
    rw [hi] at hf
    cases ends with
    | kept least =>
      cases stops' : stopAt? parts j (entered parts rounds j) with
      | none =>
        rw [endingOf_of_none stops'] at hf
        cases hf
      | some stop' =>
        have le := least i
        rw [here] at le
        rcases first j _ stop' (stops_of_stopAt? stops') with later | ⟨-, hij⟩
        · exact (Nat.not_lt_of_le le later).elim
        · exact (Nat.not_lt_of_le hij hj).elim
    | lost peer fewer =>
      cases hf
      exact trivial

end FirstStop

/-- The reports of workers that did their parts are settled as the parts say. -/
theorem verdict_of_endings
    (h : ∀ i, ∃ ending, m.ending? i = some ending ∧ PartEnds parts rounds i ending) :
    Verdict parts rounds (Report.settle m.reports) := by
  by_cases none : ∀ i round stop, ¬Stops parts rounds i round stop
  · rw [settle_of_no_stop h none]
    exact .outputs none
  · obtain ⟨i, round, stop, stops, first⟩ := exists_first_stop none
    rw [settle_of_first_stop stops first h]
    exact .blame stops first

end Traffic

open Traffic

/-- An app whose workers do their parts has one outcome, whatever the interleaving: no reachable
    mesh is stuck, the outcome is what the parts say, and it is never the loss of a peer. What the
    workers send has to be restored by the codecs. -/
theorem ShardedGraph.verdict_of_parts {M α : Type} (graph : ShardedGraph) (app : App M α)
    (t : Traffic M) (rounds : Nat) (parts : Fin graph.shards.length → t.Part α)
    (does : ∀ i, app.program i (graph.shards.get i) = (parts i).program rounds i)
    (restored : ∀ i round, round < rounds →
      (t.codec round).Restores ((parts i).value round (gathered parts round))) :
    (∀ mesh, (graph.meshOf app).Reaches mesh → ¬mesh.Stuck) ∧
      ∃ outcome, Verdict parts rounds outcome ∧
        (∀ other, graph.Outcome app other ↔ other = outcome) ∧
        graph.runApp app = outcome ∧
        ∀ worker fault, outcome ≠ .error (.communication worker fault) := by
  have start : graph.meshOf app = partsMesh parts rounds := congrArg Mesh.start (funext does)
  have verdict {other : Except Failure (List α)} (h : graph.Outcome app other) :
      Verdict parts rounds other := by
    obtain ⟨mesh, run, halted, rfl⟩ := h
    rw [start] at run
    obtain ⟨unstuck, -, endings⟩ := endings_of_parts restored run
    refine verdict_of_endings fun i => ?_
    obtain ⟨ending, left⟩ := (Mesh.finished_of_not_stuck halted unstuck).exists_ending? i
    exact ⟨ending, left, endings i ending left⟩
  have ran := verdict (graph.outcome_runApp app)
  refine ⟨fun mesh run => ?_, graph.runApp app, ran, fun other => ⟨fun h => ?_, ?_⟩, rfl,
    ran.ne_communication⟩
  · rw [start] at run
    exact (endings_of_parts restored run).1
  · exact (verdict h).unique ran
  · rintro rfl
    exact graph.outcome_runApp app

/-- Gathers words, then waits for all. The second worker fails after it has gathered, with the sum
    of what it has, and the third one aborts in the end. -/
def stumblingApp : App Bytes UInt64 where
  evaluate self _ := do
    let values ← Program.allGather .word self (UInt64.ofNat (self.val * 10))
    let sum := values.foldl (· + ·) 0
    if self.val = 1 then Program.fail (.unknownId sum) else return sum
  refine self _ sum := do
    Program.barrier .unit self
    if self.val = 2 then Program.abort else return sum

def stumblingPart (worker : Nat) : wordThenBarrier.Part UInt64 where
  value
    | 0, _ => UInt64.ofNat (worker * 10)
    | _ + 1, _ => ()
  output history := List.foldl (α := UInt64) (· + ·) 0 (history 0)
  stop?
    | 1, history =>
      let sum := List.foldl (α := UInt64) (· + ·) 0 (history 0)
      if worker = 1 then some (.failing (.unknownId sum) id) else none
    | 2, _ => if worker = 2 then some .aborting else none
    | _, _ => none

/-- A graph without vertices over three shards. -/
def threeIdleShards : ShardedGraph where
  registry := .ofShards 3
  shards := (List.range 3).map fun index =>
    ⟨index, .ofShards 3, 0, #[], ∅, ⟨#[0], #[]⟩, ⟨#[0], #[]⟩⟩
  edgeNum := 0

theorem program_stumblingApp {n : Nat} (self : Fin n) (shard : Shard) :
    stumblingApp.program self shard = (stumblingPart self).program 2 self := by
  simp only [App.program, stumblingApp, Program.barrier, bind_assoc]
  rw [Part.program, Part.programFrom_succ rfl]
  refine congrArg (_ >>= ·) (funext fun values => ?_)
  by_cases second : self.val = 1
  · rw [if_pos second, Part.programFrom_of_stop (if_pos second)]
    rfl
  · rw [if_neg second, Part.programFrom_succ (if_neg second), pure_bind]
    refine congrArg (_ >>= ·) (funext fun _ => ?_)
    rw [pure_bind]
    by_cases third : self.val = 2
    · rw [if_pos third, Part.programFrom_of_stop (if_pos third)]
      rfl
    · rw [if_neg third, Part.programFrom_zero (if_neg third)]
      rfl

/-- The two workers that stop do so by themselves, and the one that stops first is blamed, with what
    it had gathered. -/
theorem verdict_of_parts_stumbling :
    (∀ i : Fin 3, stumblingApp.program i (threeIdleShards.shards.get i) =
      (stumblingPart i).program 2 i) ∧
    Verdict (fun i : Fin 3 => stumblingPart i) 2 (.error (.unknownId 30)) ∧
    threeIdleShards.runApp stumblingApp = .error (.unknownId 30) ∧
    ∀ other, threeIdleShards.Outcome stumblingApp other ↔ other = .error (.unknownId 30) := by
  let parts : Fin 3 → wordThenBarrier.Part UInt64 := fun i => stumblingPart i
  have blamed : Verdict parts 2 (.error (.unknownId 30)) := by
    have stops : Stops parts 2 1 1 (.failing (.unknownId 30) id) := ⟨by decide, rfl⟩
    apply Verdict.blame stops
    rintro j round stop ⟨le, stops⟩
    match round with
    | 0 => cases stops
    | 1 =>
      refine .inr ⟨rfl, ?_⟩
      match j with
      | 0 => cases stops
      | 1 => exact Nat.le_refl _
      | 2 => cases stops
    | round + 2 => exact .inl (by omega)
  obtain ⟨-, outcome, verdict, outcomes, ran, -⟩ :=
    threeIdleShards.verdict_of_parts stumblingApp wordThenBarrier 2 parts
      (fun i => program_stumblingApp i _) fun _ round _ => faithful_wordThenBarrier round _
  obtain rfl := verdict.unique blamed
  exact ⟨fun i => program_stumblingApp i _, blamed, ran, outcomes⟩

end ShardCut
