import ShardCut.Boundary
import ShardCut.Proofs.Boundary.Query
import ShardCut.Proofs.Boundary.Union
import ShardCut.Proofs.Workers.Verdict

/-!
A query as a part of one round. A worker computes what it contributes, gathers once, and computes
its output. Either computation may fail: then the worker stops by itself, before the collective or
after it, and never for a loss of contact. Whether it stops in the end depends on what was gathered.

Main definitions: `FailsAlone`, `stopOf?`, `part`. Main results: `failsAlone_contribution`,
`failsAlone_encodeMerged`, `program_eq_part`.
-/

namespace ShardCut

namespace Boundary

variable {α β M : Type} {n : Nat}

/-! ### Failures of computations -/

/-- If the computation fails, then for a reason of its own. -/
def FailsAlone (computed : Except Failure α) : Prop :=
  ∀ failure, computed = .error failure → ¬failure.IsCommunication

theorem failsAlone_ok (value : α) : FailsAlone (.ok value) := nofun

theorem failsAlone_error {failure : Failure} (own : ¬failure.IsCommunication) :
    FailsAlone (.error failure : Except Failure α) := by
  rintro failure' ⟨⟩
  exact own

/-- Computations that fail for reasons of their own do so in sequence. -/
theorem FailsAlone.bind {computed : Except Failure α} {next : α → Except Failure β}
    (first : FailsAlone computed) (later : ∀ value, FailsAlone (next value)) :
    FailsAlone (computed >>= next) := by
  cases computed with
  | ok value => exact later value
  | error failure => exact failsAlone_error (first failure rfl)

/-- A computation fails for a reason of its own with its value changed, too. -/
theorem FailsAlone.map {computed : Except Failure α} (h : FailsAlone computed) (f : α → β) :
    FailsAlone (computed.map f) := by
  cases computed with
  | ok value => exact failsAlone_ok (f value)
  | error failure => exact failsAlone_error (h failure rfl)

/-- Computations that fail for reasons of their own do so over a list. -/
theorem failsAlone_mapM {f : α → Except Failure β} (each : ∀ x, FailsAlone (f x)) (xs : List α) :
    FailsAlone (xs.mapM f) := by
  induction xs with
  | nil => exact failsAlone_ok []
  | cons x xs ih =>
    rw [List.mapM_cons]
    exact (each x).bind fun y => ih.bind fun ys => failsAlone_ok (y :: ys)

theorem failsAlone_resolve (query : Query) (shard : Shard) : FailsAlone (query.resolve shard) := by
  have names : FailsAlone query.names := by
    intro failure malformed
    obtain ⟨fault, rfl⟩ := malformed_of_names malformed
    exact id
  exact names.bind fun _ => failsAlone_ok _

theorem failsAlone_idOfHandle (shard : Shard) (handle : Nat) :
    FailsAlone (shard.idOfHandle handle) := by
  unfold Shard.idOfHandle
  split
  · exact failsAlone_ok _
  · split
    · exact failsAlone_ok _
    · exact failsAlone_error id

theorem failsAlone_scan (shard : Shard) (primary secondary : IdSet) :
    FailsAlone (scan shard primary secondary) := by
  refine (failsAlone_mapM (fun source => ?_) _).bind fun _ => failsAlone_ok _
  unfold scanFrom
  split
  · exact failsAlone_ok []
  · exact (failsAlone_mapM (failsAlone_idOfHandle shard) _).bind fun _ => failsAlone_ok _

/-- What a worker contributes does not depend on its peers, and neither does why it fails to. -/
theorem failsAlone_contribution (query : Query) (shard : Shard) :
    FailsAlone (contribution query shard) :=
  (failsAlone_resolve query shard).bind fun _ => failsAlone_scan shard _ _

theorem failsAlone_nameOf (shard : Shard) (word : GlobalId) : FailsAlone (nameOf shard word) := by
  unfold nameOf
  split
  · exact failsAlone_ok _
  · exact failsAlone_error id

theorem failsAlone_rowOf (shard : Shard) (edge : GlobalId × GlobalId) :
    FailsAlone (rowOf shard edge) :=
  (failsAlone_nameOf shard edge.1).bind fun _ =>
    (failsAlone_nameOf shard edge.2).bind fun _ => failsAlone_ok _

/-- An output can only fail for an id without a name. -/
theorem failsAlone_encodeMerged (shard : Shard) (merged? : Option IdPairSet) :
    FailsAlone (encodeMerged shard merged?) := by
  cases merged? with
  | none => exact failsAlone_ok none
  | some edges =>
    exact ((failsAlone_mapM (failsAlone_rowOf shard) _).bind fun _ => failsAlone_ok _).map some

/-! ### Stops -/

/-- The stop of a worker whose computation fails. -/
def stopOf? : Except Failure α → Option Stop
  | .ok _ => none
  | .error (.abort _) => some .aborting
  | .error failure =>
    if own : ¬failure.IsCommunication then some (.failing failure own) else none

/-- A computation that fails for a reason of its own stops its worker. -/
theorem exists_stopOf? {failure : Failure} (own : ¬failure.IsCommunication) :
    ∃ stop, stopOf? (.error failure : Except Failure α) = some stop ∧
      (Program.ofExcept (.error failure) : Program n M α) = .finish stop.ending := by
  cases failure with
  | abort cause => exact ⟨.aborting, rfl, rfl⟩
  | communication worker fault => exact absurd trivial own
  | _ => exact ⟨.failing _ id, rfl, rfl⟩

/-- A worker that has stopped does nothing more. -/
theorem finish_stop_bind (stop : Stop) (next : α → Program n M β) :
    ((.finish stop.ending : Program n M α) >>= next) = .finish stop.ending := by
  cases stop <;> rfl

/-! ### Parts -/

/-- The edges that a worker contributes, if it does. -/
def contributed (query : Query) (shard : Shard) : IdPairSet :=
  match contribution query shard with
  | .ok own => own
  | .error _ => ∅

/-- The output of a worker, by what was gathered. -/
def outputFrom (query : Query) (coordinator self : Nat) (shard : Shard) (gathered : List IdPairs) :
    Except Failure (Option PairMatrix) :=
  encodeMerged shard (mergedAt coordinator self (contributed query shard) gathered)

/-- The part of a worker in a query. -/
def part (codec : Codec M IdPairs) (query : Query) (coordinator self : Nat) (shard : Shard) :
    (edgeTraffic codec).Part (Option PairMatrix) where
  value _ _ := (contributed query shard).toList
  output history :=
    match outputFrom query coordinator self shard (history 0) with
    | .ok output => output
    | .error _ => none
  stop?
    | 0, _ => stopOf? (contribution query shard)
    | _ + 1, history => stopOf? (outputFrom query coordinator self shard (history 0))

variable {codec : Codec M IdPairs} {query : Query} {coordinator : Nat}

theorem program_eq_worker (self : Fin n) (shard : Shard) :
    (app codec query coordinator).program self shard =
      worker codec query coordinator self shard :=
  Program.bind_pure _

/-- The worker of a query, on whatever shard, does its part. -/
theorem program_eq_part (self : Fin n) (shard : Shard) :
    (app codec query coordinator).program self shard =
      (part codec query coordinator self shard).program 1 self := by
  rw [program_eq_worker, worker, Traffic.Part.program]
  cases contributes : contribution query shard with
  | error failure =>
    obtain ⟨stop, stops, ends⟩ :=
      exists_stopOf? (failsAlone_contribution query shard failure contributes)
    rw [ends, finish_stop_bind, Traffic.Part.programFrom_of_stop]
    change stopOf? (contribution query shard) = _
    rw [contributes, stops]
  | ok own =>
    have goesOn : stopOf? (contribution query shard) = none := by rw [contributes]; rfl
    have own_eq : contributed query shard = own := by rw [contributed, contributes]
    rw [Traffic.Part.programFrom_succ goesOn]
    change (merge codec coordinator self own >>= _) = _
    rw [merge, bind_assoc, ← own_eq]
    refine congrArg (Program.allGather codec self _ >>= ·) (funext fun gathered => ?_)
    rw [pure_bind]
    change Program.ofExcept (outputFrom query coordinator self shard gathered) = _
    cases computed : outputFrom query coordinator self shard gathered with
    | error failure =>
      obtain ⟨stop, stops, ends⟩ :=
        exists_stopOf? (failsAlone_encodeMerged shard _ failure computed)
      rw [ends, Traffic.Part.programFrom_of_stop]
      change stopOf? (outputFrom query coordinator self shard gathered) = _
      rw [computed, stops]
    | ok output =>
      have stays : stopOf? (outputFrom query coordinator self shard gathered) = none := by
        rw [computed]; rfl
      rw [Traffic.Part.programFrom_zero stays]
      change _ = Program.pure (match outputFrom query coordinator self shard gathered with
        | .ok output => output
        | .error _ => none)
      rw [computed]
      rfl

end Boundary

end ShardCut
