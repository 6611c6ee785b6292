import Mathlib.Data.Fin.VecNotation
import ShardCut.Proofs.Mesh.Accord
import ShardCut.Proofs.Mesh.Gather

/-!
Consecutive collectives. Workers gather in one round after another and leave when they like, and a
worker whose collective failed leaves, too. Although they may be a round apart and leave while
others are still receiving, a collective that returns has the values of its own round, by worker;
and one that fails has lost a peer, which happens only after some worker left without entering the
round.

Main definitions: `takePart`, `LogSound`. Main results: `keeps_takePart`, `logSound_of_reaches`.
-/

namespace ShardCut

namespace Traffic

variable {n : Nat} {M : Type}

/-- What the collectives of a worker returned, by round; nothing for a round without one. -/
abbrev Log (t : Traffic M) := (round : Nat) → Option (Except Failure (List (t.Value round)))

/-- The values of all workers in a round. -/
def row (t : Traffic M) (x : Fin n → (round : Nat) → t.Value round) (round : Nat) :
    List (t.Value round) :=
  (List.finRange n).map fun worker => x worker round

/-- The log of a worker that gathered so many rounds, each with the values of all workers. -/
def fullLog (t : Traffic M) (x : Fin n → (round : Nat) → t.Value round) (count : Nat) : t.Log :=
  fun round => if round < count then some (.ok (t.row x round)) else none

/-- Gathers in as many rounds, beginning with the given one, and keeps what came out. A worker whose
    collective failed does not go on. -/
def takePart (t : Traffic M) (self : Fin n) (x : (round : Nat) → t.Value round) :
    (left round : Nat) → t.Log → Program n M t.Log
  | 0, _, log => pure log
  | left + 1, round, log => do
    match ← (Program.allGather (t.codec round) self (x round)).attempt with
    | .ok values =>
      takePart t self x left (round + 1) (Function.update log round (some (.ok values)))
    | .error failure => return Function.update log round (some (.error failure))

/-- The mesh of workers that gather in as many rounds as each of them likes, and then leave. -/
def meshOf (t : Traffic M) (x : Fin n → (round : Nat) → t.Value round) (count : Fin n → Nat) :
    Mesh n M t.Log :=
  .start fun i => takePart t i (x i) (count i) 0 fun _ => none

def agenda (t : Traffic M) (x : Fin n → (round : Nat) → t.Value round) (count : Fin n → Nat) :
    Agenda n M where
  message i round := (t.codec round).encode (x i round)
  bound := count

variable {t : Traffic M} {x : Fin n → (round : Nat) → t.Value round} {count : Fin n → Nat}

theorem fullLog_zero : t.fullLog x 0 = fun _ => none := by
  funext round
  simp [fullLog]

theorem update_fullLog (k : Nat) :
    Function.update (t.fullLog x k) k (some (.ok (t.row x k))) = t.fullLog x (k + 1) := by
  funext round
  by_cases h : round = k
  · subst h
    simp [fullLog]
  · have hlt : round < k + 1 ↔ round < k := by omega
    simp [fullLog, Function.update_of_ne h, hlt]

/-- How such a worker ends: after all of its rounds, and then no worker takes part in fewer; or with
    the loss of a peer, in a round in which some worker takes no part. -/
inductive Ends (t : Traffic M) (x : Fin n → (round : Nat) → t.Value round) (count : Fin n → Nat)
    (self : Fin n) : Ending t.Log → Progress n → Prop where
  | complete {c : Progress n} (lost : c.lost = false) (least : ∀ i, count self ≤ count i) :
      Ends t x count self (.returned (t.fullLog x (count self))) c
  | lost {c : Progress n} {round : Nat} (peer : Fin n) (lost : c.lost = true)
      (entered : round < count self) (broken : ∃ i, count i ≤ round) :
      Ends t x count self (.returned (Function.update (t.fullLog x round) round
        (some (.error (Program.lossOf self peer))))) c

theorem keeps_takePart
    (restored : ∀ i round, round < count i → (t.codec round).Restores (x i round))
    (self : Fin n) {left round : Nat} {c : Progress n} (rounds : round + left = count self)
    (here : c.At self round)
    (completed : ∀ i, round ≤ count i) :
    (takePart t self (x self) left round (t.fullLog x round)).Keeps (t.agenda x count) self
      (Program.Finally (t.agenda x count) self (Ends t x count self)) c := by
  induction left generalizing round c with
  | zero =>
    obtain rfl : round = count self := rounds
    exact ⟨.complete here.lost completed, here.past ⟨self, Nat.le_refl _⟩⟩
  | succ left ih =>
    have entered : round < count self := by omega
    refine Program.Keeps.bind (Program.Keeps.attempt ?_)
    refine Program.keeps_allGather (x := fun i => x i round) (fun i => restored i round)
      (fun _ _ => rfl) entered here ?_ ?_
    · intro all c hc
      have hlog := ih (by omega) hc all
      rw [← update_fullLog] at hlog
      exact hlog
    · intro broken peer c hc
      exact ⟨.lost peer hc.lost entered broken, hc.past broken⟩

theorem accords_of_reaches
    (restored : ∀ i round, round < count i → (t.codec round).Restores (x i round))
    {m : Mesh n M t.Log} (run : (t.meshOf x count).Reaches m) :
    ∃ progress, m.Accords (t.agenda x count) (Ends t x count) progress := by
  refine (Mesh.accords_start fun i => ?_).reaches run
  have h : (takePart t i (x i) (count i) 0 (t.fullLog x 0)).Keeps _ i _ _ :=
    keeps_takePart restored i (Nat.zero_add _) (Progress.at_start i) fun _ => Nat.zero_le _
  rwa [fullLog_zero] at h

theorem ends_of_ending? {m : Mesh n M t.Log} {progress : Fin n → Progress n}
    (h : m.Accords (t.agenda x count) (Ends t x count) progress) {j : Fin n}
    {ending : Ending t.Log} (left : m.worker j = .left ending) :
    Ends t x count j ending (progress j) := by
  have hj := h.keeps j
  rw [left] at hj
  exact hj.1

/-- Once a peer was lost in a round, some worker has left that did not enter it, after all of its
    own rounds. -/
theorem exists_left_of_lost {m : Mesh n M t.Log} {progress : Fin n → Progress n}
    (h : m.Accords (t.agenda x count) (Ends t x count) progress) {j : Fin n}
    (lost : (progress j).lost = true) {round : Nat} (broken : ∃ i, count i ≤ round) :
    ∃ i, count i ≤ round ∧ m.ending? i = some (.returned (t.fullLog x (count i))) := by
  obtain ⟨i, ending, left, kept⟩ := h.cause j lost
  obtain ⟨k, hk⟩ := broken
  cases ends_of_ending? h left with
  | complete _ least =>
    exact ⟨i, Nat.le_trans (least k) hk, Mesh.ending?_eq_some_iff.mpr left⟩
  | lost peer hlost _ _ =>
    rw [kept] at hlost
    cases hlost

/-- What can be said of the log of a worker that has left: its values are those of their rounds, its
    failures are losses of a peer after some worker left by itself without entering the round, and
    there is none if no worker takes part in fewer rounds. -/
structure LogSound (t : Traffic M) (x : Fin n → (round : Nat) → t.Value round)
    (count : Fin n → Nat) (m : Mesh n M t.Log) (j : Fin n) (log : t.Log) : Prop where
  values : ∀ round values, log round = some (.ok values) →
    values = (List.finRange n).map fun worker => x worker round
  failures : ∀ round failure, log round = some (.error failure) →
    (∃ peer : Fin n, failure = .communication j (.peerLeft peer)) ∧
      ∃ i, count i ≤ round ∧ m.ending? i = some (.returned (t.fullLog x (count i)))
  complete : (∀ i, count j ≤ count i) → log = t.fullLog x (count j)

theorem fullLog_eq_ok {k round : Nat} {values : List (t.Value round)}
    (h : t.fullLog x k round = some (.ok values)) : values = t.row x round := by
  unfold fullLog at h
  split at h
  · cases h
    rfl
  · cases h

theorem fullLog_ne_error {k round : Nat} {failure : Failure} :
    t.fullLog x k round ≠ some (.error failure) := by
  unfold fullLog
  split <;> nofun

/-- Whatever the interleaving, no mesh of gathering workers gets stuck, so all of them leave in the
    end, and the collectives of a worker that has left returned what they should, if the values that
    are sent can be read. -/
theorem logSound_of_reaches (t : Traffic M) (x : Fin n → (round : Nat) → t.Value round)
    (count : Fin n → Nat)
    (restored : ∀ worker round, round < count worker → (t.codec round).Restores (x worker round))
    {m : Mesh n M t.Log} (run : (t.meshOf x count).Reaches m) :
    ¬m.Stuck ∧ m.run.Finished ∧ ∀ j ending, m.ending? j = some ending →
      ∃ log, ending = .returned log ∧ t.LogSound x count m j log := by
  obtain ⟨progress, h⟩ := accords_of_reaches restored run
  refine ⟨h.not_stuck, h.finished_run, fun j ending left => ?_⟩
  cases ends_of_ending? h (Mesh.ending?_eq_some_iff.mp left) with
  | complete kept least =>
    exact ⟨_, rfl, fun _ _ => fullLog_eq_ok, fun _ _ h => (fullLog_ne_error h).elim, fun _ => rfl⟩
  | @lost _ round peer hlost entered broken =>
    refine ⟨_, rfl, fun round' values hv => ?_, fun round' failure hf => ?_, fun least => ?_⟩
    · by_cases hr : round' = round
      · subst hr
        simp at hv
      · rw [Function.update_of_ne hr] at hv
        exact fullLog_eq_ok hv
    · by_cases hr : round' = round
      · subst hr
        obtain rfl : Program.lossOf j peer = failure := by simpa using hf
        exact ⟨⟨peer, rfl⟩, exists_left_of_lost h hlost broken⟩
      · rw [Function.update_of_ne hr] at hf
        exact (fullLog_ne_error hf).elim
    · obtain ⟨i, hi⟩ := broken
      have := least i
      omega

/-- Three workers, of which the second one leaves before the barrier. All of it travels as bytes. -/
theorem logSound_of_reaches_early_leaver :
    let t := wordThenBarrier
    let x : Fin 3 → (round : Nat) → t.Value round := fun i round =>
      match round with
      | 0 => UInt64.ofNat (i.val * 10)
      | _ + 1 => ()
    let count : Fin 3 → Nat := ![2, 1, 2]
    let m := (t.meshOf x count).run
    (∀ worker round, round < count worker → (t.codec round).Restores (x worker round)) ∧
      (t.meshOf x count).Reaches m ∧ ¬m.Stuck ∧ m.run.Finished ∧
      ∀ j ending, m.ending? j = some ending →
        ∃ log, ending = .returned log ∧ t.LogSound x count m j log := by
  intro t x count m
  have restored (worker : Fin 3) (round : Nat) (_ : round < count worker) :
      (t.codec round).Restores (x worker round) := faithful_wordThenBarrier round _
  exact ⟨restored, Mesh.reaches_run _, logSound_of_reaches _ _ _ restored (Mesh.reaches_run _)⟩

end Traffic

end ShardCut
