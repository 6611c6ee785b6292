import Mathlib.Data.List.FinRange
import ShardCut.Proofs.Mesh.Agenda
import ShardCut.Proofs.Mesh.Bytes

/-!
How a collective keeps to an agenda. In a round in which every worker takes part, `allGather`
returns the values of all workers by index and leaves its worker between this round and the next
one. In a round that is broken it ends with the loss of a peer. Nothing else can come out of it: in
particular, every message that it receives is one of this round, and so can be decoded.

Main definitions: `Traffic`. Main results: `Program.keeps_sendAll`, `Program.keeps_receiveAll`,
`Program.keeps_allGather`.
-/

namespace ShardCut

variable {n : Nat} {M α β : Type}

namespace Progress

/-- In a round the worker has still to send to the listed peers, and has received nothing. -/
structure SendingTo (c : Progress n) (worker : Fin n) (round : Nat) (peers : List (Fin n)) :
    Prop where
  lost : c.lost = false
  sent : ∀ peer, peer ≠ worker → c.sent peer = if peer ∈ peers then round else round + 1
  received : ∀ peer, peer ≠ worker → c.received peer = round

/-- In a round the worker has sent to all peers, and has still to receive from the listed ones. -/
structure ReceivingFrom (c : Progress n) (worker : Fin n) (round : Nat) (peers : List (Fin n)) :
    Prop where
  lost : c.lost = false
  sent : ∀ peer, peer ≠ worker → c.sent peer = round + 1
  received : ∀ peer, peer ≠ worker → c.received peer = if peer ∈ peers then round else round + 1

variable {c : Progress n} {self peer : Fin n} {round : Nat} {peers : List (Fin n)}

theorem At.sendingTo (h : c.At self round) : c.SendingTo self round (List.finRange n) where
  lost := h.lost
  sent peer hp := by simpa using h.sent peer hp
  received := h.received

theorem SendingTo.receivingFrom (h : c.SendingTo self round []) :
    c.ReceivingFrom self round (List.finRange n) where
  lost := h.lost
  sent peer hp := by simpa using h.sent peer hp
  received peer hp := by simpa using h.received peer hp

theorem ReceivingFrom.at (h : c.ReceivingFrom self round []) : c.At self (round + 1) where
  lost := h.lost
  sent := h.sent
  received peer hp := by simpa using h.received peer hp

theorem SendingTo.skip (h : c.SendingTo self round (self :: peers)) :
    c.SendingTo self round peers where
  lost := h.lost
  sent peer hp := by simpa [hp] using h.sent peer hp
  received := h.received

theorem ReceivingFrom.skip (h : c.ReceivingFrom self round (self :: peers)) :
    c.ReceivingFrom self round peers where
  lost := h.lost
  sent := h.sent
  received peer hp := by simpa [hp] using h.received peer hp

theorem SendingTo.afterSend (h : c.SendingTo self round (peer :: peers)) (hp : peer ≠ self)
    (new : peer ∉ peers) : (c.afterSend peer).SendingTo self round peers where
  lost := h.lost
  sent other ho := by
    rw [afterSend_sent]
    by_cases heq : other = peer
    · subst heq
      simp [new, h.sent other hp]
    · simpa [heq] using h.sent other ho
  received := h.received

theorem ReceivingFrom.afterReceive (h : c.ReceivingFrom self round (peer :: peers))
    (hp : peer ≠ self) (new : peer ∉ peers) :
    (c.afterReceive peer).ReceivingFrom self round peers where
  lost := h.lost
  sent := h.sent
  received other ho := by
    rw [afterReceive_received]
    by_cases heq : other = peer
    · subst heq
      simp [new, h.received other hp]
    · simpa [heq] using h.received other ho

theorem SendingTo.afterLoss (h : c.SendingTo self round peers) : c.afterLoss.LostIn self round where
  lost := rfl
  sent peer hp := by
    rw [afterLoss_sent, h.sent peer hp]
    split <;> omega
  received peer hp := (h.received peer hp).ge

theorem ReceivingFrom.afterLoss (h : c.ReceivingFrom self round peers) :
    c.afterLoss.LostIn self round where
  lost := rfl
  sent peer hp := by
    rw [afterLoss_sent, h.sent peer hp]
    omega
  received peer hp := by
    rw [afterLoss_received, h.received peer hp]
    split <;> omega

end Progress

namespace Program

variable {agenda : Agenda n M} {self : Fin n} {round : Nat} {c : Progress n}
  {peers : List (Fin n)}

/-- The failure of a worker that lost a peer. -/
abbrev lossOf (self peer : Fin n) : Failure := .communication self (.peerLeft peer)

theorem keeps_sendAll {message : M} {ends : Ending Unit → Progress n → Prop}
    (part : round < agenda.bound self) (own : agenda.message self round = message)
    (nodup : peers.Nodup) (here : c.SendingTo self round peers)
    (returned : ∀ c, c.SendingTo self round [] → ends (.returned ()) c)
    (lost : agenda.Broken round → ∀ peer c, c.LostIn self round →
      ends (.failed (lossOf self peer)) c) :
    (sendAll self message peers).Keeps agenda self ends c := by
  induction peers generalizing c with
  | nil => exact returned c here
  | cons peer peers ih =>
    obtain ⟨new, nodup⟩ := List.nodup_cons.mp nodup
    by_cases hp : peer = self
    · subst hp
      rw [sendAll, if_pos rfl]
      exact ih nodup here.skip
    · rw [sendAll, if_neg hp]
      have hsent : c.sent peer = round := by simpa using here.sent peer hp
      refine ⟨hp, hsent ▸ part, by rw [hsent, own], ih nodup (here.afterSend hp new), ?_⟩
      intro broken
      exact lost (hsent ▸ broken) peer _ here.afterLoss

/-- The message of a restored value is decoded as this value. -/
theorem decoded_encode {codec : Codec M β} {value : β} (restored : codec.Restores value) :
    (decoded codec (codec.encode value) : Program n M β) = finish (.returned value) := by
  rw [decoded, show codec.decode? (codec.encode value) = some value from restored]
  rfl

/-- Values of all workers that take part are received in order. -/
theorem keeps_receiveAll {codec : Codec M β} {x : Fin n → β}
    {ends : Ending (List β) → Progress n → Prop}
    (restored : ∀ worker, round < agenda.bound worker → codec.Restores (x worker))
    (sends : ∀ worker, round < agenda.bound worker →
      agenda.message worker round = codec.encode (x worker))
    (part : round < agenda.bound self) (nodup : peers.Nodup)
    (here : c.ReceivingFrom self round peers)
    (returned : (∀ peer ∈ peers, round < agenda.bound peer) →
      ∀ c, c.At self (round + 1) → ends (.returned (peers.map x)) c)
    (lost : agenda.Broken round → ∀ peer c, c.LostIn self round →
      ends (.failed (lossOf self peer)) c) :
    (receiveAll codec self (codec.encode (x self)) peers).Keeps agenda self ends c := by
  induction peers generalizing c ends with
  | nil => exact returned (fun _ h => nomatch h) c here.at
  | cons peer peers ih =>
    obtain ⟨new, nodup⟩ := List.nodup_cons.mp nodup
    -- Once the message of `peer` is there, it is decoded and the others follow.
    have rest {c : Progress n} (here : c.ReceivingFrom self round peers)
        (takes : round < agenda.bound peer) :
        (decoded codec (codec.encode (x peer)) >>= fun value =>
          receiveAll codec self (codec.encode (x self)) peers >>= fun values =>
            Pure.pure (value :: values)).Keeps agenda self ends c := by
      rw [decoded_encode (restored peer takes), finish_returned_bind]
      refine Keeps.bind (ih nodup here (fun all c hc => ?_) lost)
      exact returned (List.forall_mem_cons.mpr ⟨takes, all⟩) c hc
    by_cases hp : peer = self
    · subst hp
      rw [receiveAll, receiveFrom, if_pos rfl]
      exact rest here.skip part
    · rw [receiveAll, receiveFrom, if_neg hp]
      have hreceived : c.received peer = round := by simpa using here.received peer hp
      refine ⟨hp, fun other ho => ?_, fun takes => ?_, fun broken => ?_⟩
      · rw [hreceived, here.sent other ho]
        exact Nat.lt_succ_self round
      · rw [hreceived] at takes ⊢
        rw [sends peer takes]
        exact rest (here.afterReceive hp new) takes
      · exact lost (hreceived ▸ broken) peer _ here.afterLoss

/-- A worker that takes part in a collective, being between two rounds, comes to the next one with
    the values of all, or it loses a peer, and then some worker takes no part. -/
theorem keeps_allGather {codec : Codec M β} {x : Fin n → β}
    {ends : Ending (List β) → Progress n → Prop}
    (restored : ∀ worker, round < agenda.bound worker → codec.Restores (x worker))
    (sends : ∀ worker, round < agenda.bound worker →
      agenda.message worker round = codec.encode (x worker))
    (part : round < agenda.bound self) (here : c.At self round)
    (returned : (∀ worker, round < agenda.bound worker) →
      ∀ c, c.At self (round + 1) → ends (.returned ((List.finRange n).map x)) c)
    (lost : agenda.Broken round → ∀ peer c, c.LostIn self round →
      ends (.failed (lossOf self peer)) c) :
    (allGather codec self (x self)).Keeps agenda self ends c := by
  have nodup : (List.finRange n).Nodup := List.nodup_finRange n
  refine Keeps.bind
    (keeps_sendAll part (sends self part) nodup here.sendingTo (fun c hc => ?_) lost)
  exact keeps_receiveAll restored sends part nodup hc.receivingFrom
    (fun all => returned fun worker => all worker (List.mem_finRange worker)) lost

end Program

/-- The values that travel in each round of a sequence of collectives, and how they do. The rounds
    may differ in the type of their values. -/
structure Traffic (M : Type) where
  Value : Nat → Type
  codec : (round : Nat) → Codec M (Value round)

/-- Words travel in the first round, and then there is a barrier. -/
def Traffic.wordThenBarrier : Traffic Bytes where
  Value
    | 0 => UInt64
    | _ + 1 => Unit
  codec
    | 0 => .word
    | _ + 1 => .unit

theorem Traffic.faithful_wordThenBarrier : ∀ round, (wordThenBarrier.codec round).Faithful
  | 0 => Codec.faithful_word
  | _ + 1 => Codec.faithful_unit

end ShardCut
