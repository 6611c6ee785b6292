import ShardCut.Capacity
import ShardCut.Failure
import ShardCut.Name
import Std.Data.HashMap

/-!
The registry of a sharded graph: which name has which global id. Every shard keeps the names of its
vertices in the order in which they were registered, so a slot is a position in that list, and an
index leads from a name to its id. Both directions are total look-ups over the whole graph.

Registering a name that is known changes nothing and gives back its id, whatever shard is asked for.

Main definitions: `Registry`, `Registry.id?`, `Registry.name?`, `Registry.register`,
`Registry.registerAll`.
-/

namespace ShardCut

/-- Names by shard and slot, and ids by name. -/
structure Registry where
  layout : IdLayout
  members : Array (Array VertexName)
  ids : Std.HashMap VertexName GlobalId

namespace Registry

/-- The registry without names over a number of shards. -/
def ofShards (shards : Nat) : Registry where
  layout := .ofShards shards
  members := Array.replicate shards #[]
  ids := ∅

/-- From here on there are more shards than can be addressed: a shard takes 24 bytes. -/
def shardBound : Nat := recordBound 24

/-- The registry without names, if its shards can be addressed. -/
def create (shards : Nat) : Except Failure Registry :=
  if shards < shardBound then .ok (ofShards shards) else .error (.abort .capacityOverflow)

def shardNum (r : Registry) : Nat := r.members.size

def id? (r : Registry) (name : VertexName) : Option GlobalId := r.ids[name]?

/-- The name that an id calls: its fields are a shard and a slot of that shard. -/
def name? (r : Registry) (id : GlobalId) : Option VertexName := do
  let names ← r.members[r.layout.shardOf id]?
  names[r.layout.slotOf id]?

/-- The names of a shard, by slot; a shard that does not exist has none. -/
def membersOf (r : Registry) (shard : Nat) : Array VertexName := r.members.getD shard #[]

def count (r : Registry) (shard : Nat) : Nat := (r.membersOf shard).size

/-- The number of registered names. -/
def total (r : Registry) : Nat := r.ids.size

/-- The names of a shard, by slot. To look into a shard that does not exist aborts. -/
def openShard (shard : Nat) : EStateM Failure Registry (Array VertexName) := do
  match (← get).members[shard]? with
  | some names => return names
  | none => throw (.abort .indexOutOfRange)

/-- Registers a name with a shard and gives back its id. A new name goes into the next free slot; a
    new name with a shard that does not exist aborts. What was changed before a failure would stay
    changed. -/
def register (shard : Nat) (name : VertexName) : EStateM Failure Registry GlobalId := do
  match (← get).id? name with
  | some id => return id
  | none =>
    let names ← openShard shard
    let id := (← get).layout.pack shard names.size
    modify fun r => { r with members := r.members.modify shard (·.push name) }
    modify fun r => { r with ids := r.ids.insert name id }
    return id

/-- Registers a name with the shard that `owner` gives for it, unless it is known. -/
def registerNext (owner : VertexName → Except Failure Nat) (r : Registry) (name : VertexName) :
    Except Failure Registry := do
  if (r.id? name).isSome then return r
  let shard ← owner name
  match (register shard name).run r with
  | .ok _ r => return r
  | .error failure _ => throw failure

/-- Registers names in order, each with the shard that `owner` gives for it. -/
def registerAll (owner : VertexName → Except Failure Nat) (r : Registry)
    (names : List VertexName) : Except Failure Registry :=
  names.foldlM (registerNext owner) r

end Registry

end ShardCut
