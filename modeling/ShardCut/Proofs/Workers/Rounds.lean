import Mathlib.Data.Nat.Find
import ShardCut.Proofs.Mesh.Accord
import ShardCut.Proofs.Mesh.Gather
import ShardCut.Workers

/-!
Workers that go in rounds. Every worker takes part in the same number of collectives, with values
that may depend on what was gathered before, and a failed collective ends it; but a worker may also
stop by itself, before one of the collectives or after the last one, and whether it does, and why,
may depend on what was gathered, too.

Such workers keep to an agenda in which a worker takes part up to its own first stop. So the rounds
before the first stop of all are completed by all, and nobody completes another one.

Main definitions: `Stop`, `Traffic.Part`, `Traffic.gathered`, `Traffic.entered`. Main results:
`Traffic.keeps_programFrom`, `Traffic.endings_of_parts`.
-/

namespace ShardCut

/-- Why a worker stops by itself: it fails, but not for a loss of contact, or it aborts. -/
inductive Stop where
  | failing (failure : Failure) (own : ¬failure.IsCommunication)
  | aborting

namespace Stop

/-- How a worker ends that stops. -/
def ending {α : Type} : Stop → Ending α
  | failing failure _ => .failed failure
  | aborting => .aborted

/-- What a worker that stops reports. -/
def failureOf (worker : Nat) : Stop → Failure
  | failing failure _ => failure
  | aborting => .workerAborted worker

/-- To stop by oneself is never to lose contact. -/
theorem failureOf_own (stop : Stop) (worker : Nat) : ¬(stop.failureOf worker).IsCommunication := by
  cases stop with
  | failing failure own => exact own
  | aborting => exact id

theorem ofEnding_ending {α : Type} (stop : Stop) (worker : Nat) :
    Report.ofEnding (α := α) worker (some stop.ending) = .error (stop.failureOf worker) := by
  cases stop with
  | failing failure own => rfl
  | aborting => rfl

end Stop

namespace Traffic

variable {n : Nat} {M α : Type} {t : Traffic M}

/-- What was gathered so far, by round; nothing in a round that is still to come. -/
abbrev History (t : Traffic M) := (round : Nat) → List (t.Value round)

/-- The part of a worker, as it follows from what was gathered: its value in each round, its output,
    and whether and why it stops by itself before the collective of a round. After the last
    collective counts as before one more. -/
structure Part (t : Traffic M) (α : Type) where
  value : (round : Nat) → t.History → t.Value round
  output : t.History → α
  stop? : (round : Nat) → t.History → Option Stop

namespace Part

/-- Ends by a stop, if there is one. -/
def unlessStopped (stop? : Option Stop) (next : Program n M α) : Program n M α :=
  match stop? with
  | some stop => .finish stop.ending
  | none => next

/-- Gathers in as many rounds, beginning with the given one, and ends. -/
def programFrom (p : t.Part α) (self : Fin n) : (left round : Nat) → t.History → Program n M α
  | 0, round, history => unlessStopped (p.stop? round history) (.pure (p.output history))
  | left + 1, round, history => unlessStopped (p.stop? round history) do
    let values ← Program.allGather (t.codec round) self (p.value round history)
    p.programFrom self left (round + 1) (Function.update history round values)

/-- What a worker does in so many rounds. -/
def program (p : t.Part α) (rounds : Nat) (self : Fin n) : Program n M α :=
  p.programFrom self rounds 0 fun _ => []

variable {p : t.Part α} {self : Fin n} {left round : Nat} {history : t.History}

/-- A worker that stops does nothing else. -/
theorem programFrom_of_stop {stop : Stop} (stops : p.stop? round history = some stop) :
    p.programFrom self left round history = .finish stop.ending := by
  cases left <;> rw [programFrom, stops, unlessStopped]

/-- A worker without rounds left returns its output. -/
theorem programFrom_zero (goesOn : p.stop? round history = none) :
    p.programFrom self 0 round history = .pure (p.output history) := by
  rw [programFrom, goesOn, unlessStopped]

/-- A worker with rounds left gathers and goes on. -/
theorem programFrom_succ (goesOn : p.stop? round history = none) :
    p.programFrom self (left + 1) round history =
      (Program.allGather (t.codec round) self (p.value round history) >>= fun values =>
        p.programFrom self left (round + 1) (Function.update history round values)) := by
  rw [programFrom, goesOn, unlessStopped]

end Part

/-- What all workers have gathered in the first rounds, each with its value by worker. -/
def gathered (parts : Fin n → t.Part α) : Nat → t.History
  | 0 => fun _ => []
  | round + 1 =>
    Function.update (gathered parts round) round
      ((List.finRange n).map fun i => (parts i).value round (gathered parts round))

/-- Why a worker stops by itself before a round, once the rounds before it are completed. -/
def stopAt? (parts : Fin n → t.Part α) (i : Fin n) (round : Nat) : Option Stop :=
  (parts i).stop? round (gathered parts round)

/-- The number of collectives that a worker enters if it does not lose a peer: those before its
    first stop, or all. -/
def entered (parts : Fin n → t.Part α) (rounds : Nat) (i : Fin n) : Nat :=
  Nat.find (p := fun round => round = rounds ∨ (stopAt? parts i round).isSome) ⟨rounds, .inl rfl⟩

/-- How a worker ends that did not lose a peer. -/
def endingOf (parts : Fin n → t.Part α) (rounds : Nat) (i : Fin n) : Ending α :=
  match stopAt? parts i (entered parts rounds i) with
  | some stop => stop.ending
  | none => .returned ((parts i).output (gathered parts (entered parts rounds i)))

section Entered

variable {parts : Fin n → t.Part α} {rounds round : Nat} {i : Fin n} {stop : Stop}

theorem entered_le : entered parts rounds i ≤ rounds := Nat.find_min' _ (.inl rfl)

/-- No worker goes beyond a stop. -/
theorem entered_le_of_stop (stops : stopAt? parts i round = some stop) :
    entered parts rounds i ≤ round :=
  Nat.find_min' _ (.inr (by rw [stops]; rfl))

/-- A worker goes on as long as it does not stop and rounds are left. -/
theorem lt_entered (le : round ≤ entered parts rounds i) (more : round < rounds)
    (goesOn : stopAt? parts i round = none) : round < entered parts rounds i := by
  apply Nat.lt_of_le_of_ne le
  rintro rfl
  rcases Nat.find_spec (p := fun round => round = rounds ∨ (stopAt? parts i round).isSome)
    ⟨rounds, .inl rfl⟩ with all | stops
  · exact Nat.ne_of_lt more all
  · exact absurd (goesOn ▸ stops) (by decide)

/-- A worker that does not enter all rounds has stopped. -/
theorem exists_stop_of_entered_lt (less : entered parts rounds i < rounds) :
    ∃ stop, stopAt? parts i (entered parts rounds i) = some stop := by
  rcases Nat.find_spec (p := fun round => round = rounds ∨ (stopAt? parts i round).isSome)
    ⟨rounds, .inl rfl⟩ with all | stops
  · exact absurd all (Nat.ne_of_lt less)
  · exact Option.isSome_iff_exists.mp stops

theorem endingOf_of_stop (stops : stopAt? parts i (entered parts rounds i) = some stop) :
    endingOf parts rounds i = stop.ending := by
  rw [endingOf, stops]

/-- A worker that does not stop enters all rounds. -/
theorem entered_of_none (goesOn : stopAt? parts i (entered parts rounds i) = none) :
    entered parts rounds i = rounds := by
  refine Nat.le_antisymm entered_le (Nat.le_of_not_lt fun less => ?_)
  obtain ⟨stop, stops⟩ := exists_stop_of_entered_lt less
  cases goesOn.symm.trans stops

/-- A worker that does not stop returns its output. -/
theorem endingOf_of_none (goesOn : stopAt? parts i (entered parts rounds i) = none) :
    endingOf parts rounds i = .returned ((parts i).output (gathered parts rounds)) := by
  rw [endingOf, goesOn, entered_of_none goesOn]

end Entered

def agendaOf (parts : Fin n → t.Part α) (rounds : Nat) : Agenda n M where
  message i round := (t.codec round).encode ((parts i).value round (gathered parts round))
  bound := entered parts rounds

/-- How a worker ends: as its part says, and then no worker enters fewer rounds; or with the loss of
    a peer, and then some worker does. -/
inductive PartEnds (parts : Fin n → t.Part α) (rounds : Nat) (self : Fin n) : Ending α → Prop where
  | kept (least : ∀ i, entered parts rounds self ≤ entered parts rounds i) :
      PartEnds parts rounds self (endingOf parts rounds self)
  | lost (peer : Fin n) (fewer : ∃ i, entered parts rounds i < entered parts rounds self) :
      PartEnds parts rounds self (.failed (Program.lossOf self peer))

/-- The codecs restore what the workers with these parts send. -/
def Restored (parts : Fin n → t.Part α) (rounds : Nat) : Prop :=
  ∀ i round, round < rounds →
    (t.codec round).Restores ((parts i).value round (gathered parts round))

variable {parts : Fin n → t.Part α} {rounds : Nat}

/-- A worker that enters no further round ends as its part says, and nobody can complete one. -/
theorem finally_of_last {self : Fin n} {round : Nat} {c : Progress n} (here : c.At self round)
    (completed : ∀ i, round ≤ entered parts rounds i) (last : entered parts rounds self = round) :
    Program.Finally (agendaOf parts rounds) self
      (fun ending _ => PartEnds parts rounds self ending) (endingOf parts rounds self) c :=
  ⟨.kept fun i => Nat.le_trans (Nat.le_of_eq last) (completed i),
    here.past ⟨self, Nat.le_of_eq last⟩⟩

/-- A worker that stops now keeps to the agenda, however many rounds are left. -/
theorem keeps_of_stop {self : Fin n} {left round : Nat} {c : Progress n} {stop : Stop}
    (stops : stopAt? parts self round = some stop) (here : c.At self round)
    (completed : ∀ i, round ≤ entered parts rounds i) :
    ((parts self).programFrom self left round (gathered parts round)).Keeps (agendaOf parts rounds)
      self (Program.Finally (agendaOf parts rounds) self fun ending _ =>
        PartEnds parts rounds self ending) c := by
  have last : entered parts rounds self = round :=
    Nat.le_antisymm (entered_le_of_stop stops) (completed self)
  have stops' : stopAt? parts self (entered parts rounds self) = some stop := by rwa [last]
  have ended := finally_of_last here completed last
  rw [endingOf_of_stop stops'] at ended
  rwa [Part.programFrom_of_stop stops]

/-- A worker that has completed the rounds so far keeps to the agenda of all parts. -/
theorem keeps_programFrom (restored : Restored parts rounds) (self : Fin n) {left round : Nat}
    {c : Progress n} (count : round + left = rounds) (here : c.At self round)
    (completed : ∀ i, round ≤ entered parts rounds i) :
    ((parts self).programFrom self left round (gathered parts round)).Keeps (agendaOf parts rounds)
      self (Program.Finally (agendaOf parts rounds) self fun ending _ =>
        PartEnds parts rounds self ending) c := by
  induction left generalizing round c with
  | zero =>
    obtain rfl : round = rounds := count
    have last : entered parts round self = round := Nat.le_antisymm entered_le (completed self)
    cases stops : stopAt? parts self round with
    | some stop => exact keeps_of_stop stops here completed
    | none =>
      have ended := finally_of_last here completed last
      rw [endingOf_of_none (by rwa [last])] at ended
      rwa [Part.programFrom_zero stops]
  | succ left ih =>
    cases stops : stopAt? parts self round with
    | some stop => exact keeps_of_stop stops here completed
    | none =>
      have more : round < rounds := by omega
      have enters := lt_entered (completed self) more stops
      rw [Part.programFrom_succ stops]
      apply Program.Keeps.bind
      refine Program.keeps_allGather
        (x := fun i => (parts i).value round (gathered parts round))
        (fun i _ => restored i round more) (fun _ _ => rfl) enters here ?_ ?_
      · intro all c hc
        exact ih (by omega) hc all
      · intro broken peer c hc
        obtain ⟨i, hi⟩ := broken
        exact ⟨.lost peer ⟨i, Nat.lt_of_le_of_lt hi enters⟩, hc.past ⟨i, hi⟩⟩

/-- Workers that do their parts keep to the agenda of all parts. -/
theorem keeps_program (restored : Restored parts rounds) (self : Fin n) :
    ((parts self).program rounds self).Keeps (agendaOf parts rounds) self
      (Program.Finally (agendaOf parts rounds) self fun ending _ =>
        PartEnds parts rounds self ending) .start :=
  keeps_programFrom restored self (Nat.zero_add _) (Progress.at_start self) fun _ => Nat.zero_le _

/-- The mesh of the workers with these parts. -/
def partsMesh (parts : Fin n → t.Part α) (rounds : Nat) : Mesh n M α :=
  .start fun i => (parts i).program rounds i

/-- Workers that do their parts come to an end in every interleaving, each as its part says or with
    the loss of a peer. -/
theorem endings_of_parts (restored : Restored parts rounds) {m : Mesh n M α}
    (run : (partsMesh parts rounds).Reaches m) :
    ¬m.Stuck ∧ m.run.Finished ∧
      ∀ i ending, m.ending? i = some ending → PartEnds parts rounds i ending := by
  obtain ⟨progress, accords⟩ := (Mesh.accords_start (keeps_program restored)).reaches run
  refine ⟨accords.not_stuck, accords.finished_run, fun i ending left => ?_⟩
  have kept := accords.keeps i
  rw [Mesh.ending?_eq_some_iff.mp left] at kept
  exact kept.1

end Traffic

end ShardCut
