import ShardCut.Mesh.Program

/-!
Collectives: operations in which every worker of a mesh takes part. In `Program.allGather` a worker
sends its value to all peers, in the order of their indices, and then receives theirs, in the same
order; its own value stands at its own index. A peer that is lost on the way ends the program with a
communication failure, and a message that cannot be decoded ends it at once.

A collective returns only when every worker has contributed, so gathering nothing but the fact that
all are there is a barrier.

Main definitions: `Codec`, `Codec.Restores`, `Program.allGather`, `Program.barrier`.
-/

namespace ShardCut

/-- How values of `α` travel as messages of `M`. -/
structure Codec (M α : Type) where
  encode : α → M
  decode? : M → Option α

/-- A codec restores a value when the message of it is decoded as the value itself. -/
def Codec.Restores {M α : Type} (codec : Codec M α) (value : α) : Prop :=
  codec.decode? (codec.encode value) = some value

/-- A codec is faithful when it restores every value. -/
def Codec.Faithful {M α : Type} (codec : Codec M α) : Prop := ∀ value, codec.Restores value

namespace Program

variable {n : Nat} {M α : Type}

/-- Ends with the loss of a peer. -/
def lost (self peer : Fin n) : Program n M α :=
  fail (.communication self (.peerLeft peer))

/-- Sends a message to the listed peers, the sender excepted. -/
def sendAll (self : Fin n) (message : M) : List (Fin n) → Program n M Unit
  | [] => pure ()
  | peer :: peers =>
    if peer = self then sendAll self message peers
    else .send peer message fun there =>
      if there then sendAll self message peers else lost self peer

/-- The next message of a peer. A worker has its own message without receiving it. -/
def receiveFrom (self : Fin n) (own : M) (peer : Fin n) : Program n M M :=
  if peer = self then pure own
  else .receive peer fun
    | some message => pure message
    | none => lost self peer

/-- The value of a message. -/
def decoded (codec : Codec M α) (message : M) : Program n M α :=
  match codec.decode? message with
  | some value => pure value
  | none => fail .undecodable

/-- Receives a value of each of the listed workers. Every message is decoded before the next one is
    waited for. -/
def receiveAll (codec : Codec M α) (self : Fin n) (own : M) :
    List (Fin n) → Program n M (List α)
  | [] => pure []
  | peer :: peers => do
    let message ← receiveFrom self own peer
    let value ← decoded codec message
    let values ← receiveAll codec self own peers
    return value :: values

/-- Sends a value to all workers, and returns the values of all of them by index. -/
def allGather (codec : Codec M α) (self : Fin n) (value : α) : Program n M (List α) := do
  let message := codec.encode value
  sendAll self message (List.finRange n)
  receiveAll codec self message (List.finRange n)

/-- Waits until all workers have come here. -/
def barrier (codec : Codec M Unit) (self : Fin n) : Program n M Unit := do
  let _ ← allGather codec self ()
  return ()

end Program

end ShardCut
