import ShardCut.Mesh
import ShardCut.Mesh.Collective
import ShardCut.ShardedGraph

/-!
Parallel runs. An app says what the worker of a shard does, in two phases: it evaluates the shard,
and then it may refine what came out. `ShardedGraph.runApp` runs one worker for each shard and gives
back their outputs by shard.

When one worker fails, its peers usually fail too, because they lose contact with it. So a failure
that is no loss of contact is reported in preference to any that is, and among these the one of the
first worker.

Main definitions: `App`, `Report.settle`, `ShardedGraph.Outcome`, `ShardedGraph.runApp`. Main
results: `ShardedGraph.outcome_runApp`.
-/

namespace ShardCut

/-- What the workers of a sharded graph do. -/
structure App (M α : Type) where
  /-- The first phase of a worker. -/
  evaluate : {n : Nat} → (self : Fin n) → Shard → Program n M α
  /-- The second phase of a worker; it starts from what the first one returned. -/
  refine : {n : Nat} → (self : Fin n) → Shard → α → Program n M α :=
    fun _ _ output => .pure output

def App.program {M α : Type} (app : App M α) {n : Nat} (self : Fin n) (shard : Shard) :
    Program n M α := do
  let output ← app.evaluate self shard
  app.refine self shard output

/-- What a worker reports in the end: its output, or its failure. -/
abbrev Report (α : Type) := Except Failure α

namespace Report

variable {α : Type}

/-- The report of a worker that ended in this way. A worker that waits for ever reports that. -/
def ofEnding (worker : Nat) : Option (Ending α) → Report α
  | some (.returned output) => .ok output
  | some (.failed failure) => .error failure
  | some .aborted => .error (.workerAborted worker)
  | none => .error (.communication worker .stalled)

def output? : Report α → Option α
  | .ok output => some output
  | .error _ => none

def failure? : Report α → Option Failure
  | .ok _ => none
  | .error failure => some failure

/-- The failure to blame: the first one that is no loss of contact, and otherwise the first one. -/
def blame? (failures : List Failure) : Option Failure :=
  (failures.find? fun failure => ¬failure.IsCommunication).or failures.head?

/-- The outputs of all workers, or the failure to blame. -/
def settle (reports : List (Report α)) : Except Failure (List α) :=
  match blame? (reports.filterMap failure?) with
  | some failure => .error failure
  | none => .ok (reports.filterMap output?)

example :
    blame? [.communication 0 (.peerLeft 1), .undecodable, .unreadable] = some .undecodable := by
  decide

end Report

/-- The reports of the workers of a mesh. -/
def Mesh.reports {n : Nat} {M α : Type} (mesh : Mesh n M α) : List (Report α) :=
  (List.finRange n).map fun i : Fin n => .ofEnding i (mesh.ending? i)

/-- The mesh in which an app starts: one worker for each shard. -/
def ShardedGraph.meshOf {M α : Type} (graph : ShardedGraph) (app : App M α) :
    Mesh graph.shards.length M α :=
  .start fun i => app.program i (graph.shards.get i)

/-- The outcomes of an app: what its workers report once none of them can move any more, in any
    interleaving. -/
def ShardedGraph.Outcome {M α : Type} (graph : ShardedGraph) (app : App M α)
    (outcome : Except Failure (List α)) : Prop :=
  ∃ mesh, (graph.meshOf app).Reaches mesh ∧ (∀ i, mesh.step? i = none) ∧
    Report.settle mesh.reports = outcome

/-- Runs an app on all shards. -/
def ShardedGraph.runApp {M α : Type} (graph : ShardedGraph) (app : App M α) :
    Except Failure (List α) :=
  Report.settle (graph.meshOf app).run.reports

/-- What comes out of running an app is one of its outcomes. -/
theorem ShardedGraph.outcome_runApp {M α : Type} (graph : ShardedGraph) (app : App M α) :
    graph.Outcome app (graph.runApp app) :=
  ⟨_, Mesh.reaches_run _, Mesh.step?_run _, rfl⟩

end ShardCut
