import Mathlib.Logic.Function.Basic
import ShardCut.Mesh.Collective

/-!
Agendas: what the workers of a mesh send each other, round by round. An agenda says for every worker
in how many rounds it takes part and which message it sends in each of them. A program *keeps* to
its part of an agenda when it sends the right messages, asks no peer for a message before its own
ones of the round are sent, and ends as it should, provided that its peers do likewise. This is a
weakest precondition, defined along the tree of the program, and it has a rule for every way in
which programs are put together.

What a peer that left can do to a program is part of it: contact is lost only in a round in which
some worker takes no part, and the program has to end well in that case, too.

Main definitions: `Agenda`, `Progress`, `Program.Keeps`. Main results: `Program.Keeps.bind`,
`Program.Keeps.attempt`.
-/

namespace ShardCut

/-- What workers send to each of their peers, by round, and in how many rounds they do. -/
structure Agenda (n : Nat) (M : Type) where
  message : Fin n → Nat → M
  bound : Fin n → Nat

namespace Agenda

variable {n : Nat} {M : Type} {agenda : Agenda n M}

/-- Some worker takes no part in the round, so nobody can complete it. -/
def Broken (agenda : Agenda n M) (round : Nat) : Prop := ∃ worker, agenda.bound worker ≤ round

/-- Once a worker takes no part any more, it takes none later on. -/
theorem Broken.mono {round later : Nat} (h : agenda.Broken round) (le : round ≤ later) :
    agenda.Broken later := by
  obtain ⟨worker, hw⟩ := h
  exact ⟨worker, Nat.le_trans hw le⟩

/-- The messages of a worker from one round up to another one, which is left out. -/
def span (agenda : Agenda n M) (worker : Fin n) (start stop : Nat) : List M :=
  (List.range' start (stop - start)).map (agenda.message worker)

@[simp] theorem span_self (worker : Fin n) (round : Nat) : agenda.span worker round round = [] := by
  simp [span]

/-- The messages of one more round stand at the end. -/
theorem span_succ (worker : Fin n) {start stop : Nat} (h : start ≤ stop) :
    agenda.span worker start (stop + 1) =
      agenda.span worker start stop ++ [agenda.message worker stop] := by
  have hlen : stop + 1 - start = (stop - start) + 1 := by omega
  have hlast : start + (stop - start) = stop := by omega
  simp [span, hlen, List.range'_concat, hlast]

/-- The messages begin with that of the first round. -/
theorem span_of_lt (worker : Fin n) {start stop : Nat} (h : start < stop) :
    agenda.span worker start stop =
      agenda.message worker start :: agenda.span worker (start + 1) stop := by
  have hlen : stop - start = (stop - (start + 1)) + 1 := by omega
  simp [span, hlen, List.range'_succ]

theorem span_eq_nil_iff (worker : Fin n) {start stop : Nat} :
    agenda.span worker start stop = [] ↔ stop ≤ start := by
  simp [span, Nat.sub_eq_zero_iff_le]

end Agenda

/-- How far a worker has come: how many messages it has sent to and received from every peer, and
    whether it has lost contact. -/
structure Progress (n : Nat) where
  sent : Fin n → Nat
  received : Fin n → Nat
  lost : Bool

namespace Progress

variable {n : Nat} {M : Type}

def start : Progress n := ⟨fun _ => 0, fun _ => 0, false⟩

def afterSend (c : Progress n) (peer : Fin n) : Progress n :=
  { c with sent := Function.update c.sent peer (c.sent peer + 1) }

def afterReceive (c : Progress n) (peer : Fin n) : Progress n :=
  { c with received := Function.update c.received peer (c.received peer + 1) }

def afterLoss (c : Progress n) : Progress n := { c with lost := true }

@[simp] theorem afterSend_received (c : Progress n) (peer : Fin n) :
    (c.afterSend peer).received = c.received := rfl

@[simp] theorem afterSend_lost (c : Progress n) (peer : Fin n) :
    (c.afterSend peer).lost = c.lost := rfl

@[simp] theorem afterReceive_sent (c : Progress n) (peer : Fin n) :
    (c.afterReceive peer).sent = c.sent := rfl

@[simp] theorem afterReceive_lost (c : Progress n) (peer : Fin n) :
    (c.afterReceive peer).lost = c.lost := rfl

@[simp] theorem afterLoss_sent (c : Progress n) : c.afterLoss.sent = c.sent := rfl

@[simp] theorem afterLoss_received (c : Progress n) : c.afterLoss.received = c.received := rfl

@[simp] theorem afterLoss_lost (c : Progress n) : c.afterLoss.lost = true := rfl

theorem afterSend_sent (c : Progress n) (peer other : Fin n) :
    (c.afterSend peer).sent other = if other = peer then c.sent peer + 1 else c.sent other := by
  simp [afterSend, Function.update_apply]

theorem afterReceive_received (c : Progress n) (peer other : Fin n) :
    (c.afterReceive peer).received other =
      if other = peer then c.received peer + 1 else c.received other := by
  simp [afterReceive, Function.update_apply]

/-- The worker is between two rounds: it has completed the first ones and no other. -/
structure At (c : Progress n) (worker : Fin n) (round : Nat) : Prop where
  lost : c.lost = false
  sent : ∀ peer, peer ≠ worker → c.sent peer = round
  received : ∀ peer, peer ≠ worker → c.received peer = round

/-- The worker has lost contact in the round or later. -/
structure LostIn (c : Progress n) (worker : Fin n) (round : Nat) : Prop where
  lost : c.lost = true
  sent : ∀ peer, peer ≠ worker → round ≤ c.sent peer
  received : ∀ peer, peer ≠ worker → round ≤ c.received peer

/-- Nobody can get anything more from the worker or give anything more to it that would complete a
    round. -/
def Past (c : Progress n) (agenda : Agenda n M) (self : Fin n) : Prop :=
  ∀ peer, peer ≠ self → agenda.Broken (c.sent peer) ∧ agenda.Broken (c.received peer)

theorem at_start (self : Fin n) : (start : Progress n).At self 0 :=
  ⟨rfl, fun _ _ => rfl, fun _ _ => rfl⟩

theorem At.past {c : Progress n} {agenda : Agenda n M} {self : Fin n} {round : Nat}
    (h : c.At self round) (broken : agenda.Broken round) : c.Past agenda self := by
  intro peer hp
  rw [h.sent peer hp, h.received peer hp]
  exact ⟨broken, broken⟩

theorem LostIn.past {c : Progress n} {agenda : Agenda n M} {self : Fin n} {round : Nat}
    (h : c.LostIn self round) (broken : agenda.Broken round) : c.Past agenda self :=
  fun peer hp => ⟨broken.mono (h.sent peer hp), broken.mono (h.received peer hp)⟩

end Progress

namespace Program

variable {n : Nat} {M α β : Type}

/-- The program, run by a worker that has come so far, keeps to the agenda, and what it ends with
    fulfils the condition. A message is asked for only when more messages were sent to every peer;
    contact is lost only in a round that is broken. -/
def Keeps (agenda : Agenda n M) (self : Fin n) (ends : Ending α → Progress n → Prop) :
    Program n M α → Progress n → Prop
  | finish ending, c => ends ending c
  | send peer message resume, c =>
    peer ≠ self ∧ c.sent peer < agenda.bound self ∧ message = agenda.message self (c.sent peer) ∧
      Keeps agenda self ends (resume true) (c.afterSend peer) ∧
      (agenda.Broken (c.sent peer) → Keeps agenda self ends (resume false) c.afterLoss)
  | receive peer resume, c =>
    peer ≠ self ∧ (∀ other, other ≠ self → c.received peer < c.sent other) ∧
      (c.received peer < agenda.bound peer →
        Keeps agenda self ends (resume (some (agenda.message peer (c.received peer))))
          (c.afterReceive peer)) ∧
      (agenda.Broken (c.received peer) → Keeps agenda self ends (resume none) c.afterLoss)

variable {agenda : Agenda n M} {self : Fin n}

/-- What has to hold at the end of a program that is followed by another one. -/
def Then (agenda : Agenda n M) (self : Fin n) (next : α → Program n M β)
    (ends : Ending β → Progress n → Prop) : Ending α → Progress n → Prop
  | .returned value, c => (next value).Keeps agenda self ends c
  | .failed failure, c => ends (.failed failure) c
  | .aborted, c => ends .aborted c

/-- A program keeps to an agenda when its first part does, up to where the second one begins. -/
theorem Keeps.bind {p : Program n M α} {next : α → Program n M β}
    {ends : Ending β → Progress n → Prop} {c : Progress n}
    (h : p.Keeps agenda self (Then agenda self next ends) c) :
    (p >>= next).Keeps agenda self ends c := by
  induction p generalizing c with
  | finish ending =>
    cases ending with
    | returned value => exact h
    | failed failure => exact h
    | aborted => exact h
  | send peer message resume ih =>
    obtain ⟨hne, hlt, hmsg, hthere, hgone⟩ := h
    exact ⟨hne, hlt, hmsg, ih true hthere, fun broken => ih false (hgone broken)⟩
  | receive peer resume ih =>
    obtain ⟨hne, hlt, hsome, hnone⟩ := h
    exact ⟨hne, hlt, fun bound => ih _ (hsome bound), fun broken => ih none (hnone broken)⟩

/-- What has to hold at the end of a program whose failure becomes a value. -/
def Attempted (ends : Ending (Except Failure α) → Progress n → Prop) :
    Ending α → Progress n → Prop
  | .returned value, c => ends (.returned (.ok value)) c
  | .failed failure, c => ends (.returned (.error failure)) c
  | .aborted, c => ends .aborted c

/-- A program whose failure is caught keeps to the agenda just the same. -/
theorem Keeps.attempt {p : Program n M α} {ends : Ending (Except Failure α) → Progress n → Prop}
    {c : Progress n} (h : p.Keeps agenda self (Attempted ends) c) :
    p.attempt.Keeps agenda self ends c := by
  induction p generalizing c with
  | finish ending =>
    cases ending with
    | returned value => exact h
    | failed failure => exact h
    | aborted => exact h
  | send peer message resume ih =>
    obtain ⟨hne, hlt, hmsg, hthere, hgone⟩ := h
    exact ⟨hne, hlt, hmsg, ih true hthere, fun broken => ih false (hgone broken)⟩
  | receive peer resume ih =>
    obtain ⟨hne, hlt, hsome, hnone⟩ := h
    exact ⟨hne, hlt, fun bound => ih _ (hsome bound), fun broken => ih none (hnone broken)⟩

end Program

end ShardCut
