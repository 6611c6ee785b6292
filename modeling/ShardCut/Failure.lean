import ShardCut.GlobalId
import ShardCut.Json.Fault

/-!
Everything that can go wrong, as causes. A cause says what happened; its wording is in the function
`message` of its type and nowhere else.

Most failures are reported to the caller. An `Abort` is different in kind: a caller broke the
contract of an operation, such as asking for a vertex that the shard does not have, and the
computation stops where it stands. A worker that aborts is reported by its index.

Main definitions: `Abort`, `Failure`, `Failure.message`.
-/

namespace ShardCut

/-- What is wrong with a line of a graph file. -/
inductive LineFault where
  | metadataMisplaced
  | vertexCountMalformed
  | edgeCountMalformed
  | vertexWithoutName
  | edgeWithoutEnds
  | unknownRecord (token : String)
  | stated (reason : String)
deriving DecidableEq, Repr

def LineFault.message : LineFault → String
  | metadataMisplaced => "metadata must be the first line: t <vertex_count> <edge_count>"
  | vertexCountMalformed => "vertex count is not a number"
  | edgeCountMalformed => "edge count is not a number"
  | vertexWithoutName => "vertex line needs an id"
  | edgeWithoutEnds => "edge line needs a source and a destination"
  | unknownRecord token => "unknown record type '" ++ token ++ "'"
  | stated reason => reason

/-- What went wrong between workers. -/
inductive LinkFault where
  | peerLeft (peer : Nat)
  | noResult
  | stalled
  | stated (reason : String)
deriving DecidableEq, Repr

def LinkFault.message : LinkFault → String
  | peerLeft peer => "worker " ++ toString peer ++ " left the collective"
  | noResult => "coordinator produced no result"
  | stalled => "no worker can move"
  | stated reason => reason

/-- What is wrong with a setting. -/
inductive SettingFault where
  | noShards
  | nothingToSplitOver
  | coordinatorOutOfRange (coordinator shards : Nat)
  | shardTooLarge (maxSlot : Nat)
  | stated (reason : String)
deriving DecidableEq, Repr

def SettingFault.message : SettingFault → String
  | noShards => "fragment_num must be at least 1"
  | nothingToSplitOver => "a graph needs at least one fragment"
  | coordinatorOutOfRange coordinator shards =>
    "coordinator " ++ toString coordinator ++ " is not a fragment id below " ++ toString shards
  | shardTooLarge maxSlot => "a fragment holds more than " ++ toString maxSlot ++ " vertices"
  | stated reason => reason

/-- Why a computation stopped where it stood. -/
inductive Abort where
  | indexOutOfRange
  | remainderByZero
  | capacityOverflow
deriving DecidableEq, Repr

/-- The failures of the library. -/
inductive Failure where
  /-- A list of vertices is not a JSON array of names. -/
  | malformedList (fault : Json.Fault)
  /-- A global id calls no vertex. -/
  | unknownId (id : GlobalId)
  /-- A worker lost contact with its peers. -/
  | communication (worker : Nat) (fault : LinkFault)
  /-- A message of a peer cannot be decoded. -/
  | undecodable
  /-- A file cannot be read, or a line of it is not text. -/
  | unreadable
  /-- A line of a graph file is malformed. -/
  | badLine (line : Nat) (fault : LineFault)
  /-- A settings file is malformed. -/
  | badSettings
  /-- A setting is outside its range. -/
  | invalidSetting (fault : SettingFault)
  /-- A worker aborted. -/
  | workerAborted (worker : Nat)
  /-- The computation itself aborted. -/
  | abort (cause : Abort)
deriving DecidableEq, Repr

namespace Failure

/-- Whether a failure is a loss of contact. These are symptoms: the peer that was lost has a failure
    of its own, or has ended early. -/
def IsCommunication : Failure → Prop
  | communication _ _ => True
  | _ => False

instance : DecidablePred IsCommunication
  | communication _ _ => isTrue trivial
  | malformedList _ | unknownId _ | undecodable | unreadable | badLine _ _ | badSettings
  | invalidSetting _ | workerAborted _ | abort _ => isFalse id

def message : Failure → String
  | malformedList fault => "malformed vertex list: " ++ fault.message
  | unknownId id =>
    "no external id for global id 0x" ++ String.ofList (Text.hexDigits id.toNat)
  | communication worker fault =>
    "communication failure on worker " ++ toString worker ++ ": " ++ fault.message
  | undecodable => "payload codec error"
  | unreadable => "io error"
  | badLine line fault => "graph format error at line " ++ toString line ++ ": " ++ fault.message
  | badSettings => "config error"
  | invalidSetting fault => "invalid config: " ++ fault.message
  | workerAborted worker => "worker " ++ toString worker ++ " panicked"
  | abort .indexOutOfRange => "index out of range"
  | abort .remainderByZero => "remainder by zero"
  | abort .capacityOverflow => "capacity overflow"

end Failure

end ShardCut
