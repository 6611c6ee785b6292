import ShardCut.Failure

/-!
Settings of a run: over how many shards a graph is split, and which worker coordinates. Settings are
laid over each other: what a later source does not state stays as it was.

Main definitions: `Settings`, `Settings.overlay`, `Settings.validate`.
-/

namespace ShardCut

/-- The settings of a run. -/
structure Settings where
  shards : Nat
  coordinator : Nat
deriving DecidableEq, Repr

/-- What one source states about the settings. -/
structure StatedSettings where
  shards? : Option Nat
  coordinator? : Option Nat
deriving DecidableEq, Repr

namespace Settings

def default : Settings := ⟨4, 0⟩

/-- The settings with what a source states. -/
def overlay (settings : Settings) (stated : StatedSettings) : Settings where
  shards := stated.shards?.getD settings.shards
  coordinator := stated.coordinator?.getD settings.coordinator

/-- Settings are valid when there is a shard and the coordinator is the worker of one. -/
def Valid (settings : Settings) : Prop :=
  settings.shards ≠ 0 ∧ settings.coordinator < settings.shards

instance (settings : Settings) : Decidable settings.Valid :=
  inferInstanceAs (Decidable (_ ∧ _))

/-- The settings themselves if they are valid, and otherwise what is wrong with them. -/
def validate (settings : Settings) : Except Failure Settings :=
  if settings.shards = 0 then .error (.invalidSetting .noShards)
  else if settings.shards ≤ settings.coordinator then
    .error (.invalidSetting (.coordinatorOutOfRange settings.coordinator settings.shards))
  else .ok settings

end Settings

end ShardCut
