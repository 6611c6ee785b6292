import ShardCut.Mesh.Program

/-!
A mesh of workers. Every ordered pair of workers has a queue of its own, so the messages of a peer
arrive in the order in which it sent them. One step of a mesh is one step of one worker:

* a message to a peer that is still there joins the queue to it; of a peer that has left, the sender
  learns so and goes on;
* the oldest message of a peer is taken from the queue from it, also after the peer has left; if the
  queue is empty, a worker learns that the peer has left, or waits while it is there;
* a worker whose program has ended leaves the mesh.

`Mesh.Step` relates a mesh to every mesh one step later, whichever worker moves: these are all
interleavings. `Mesh.run` follows one of them to its end. Every interleaving has an end, since each
step makes the program of one worker smaller.

Main definitions: `Mesh`, `Mesh.Step`, `Mesh.Reaches`, `Mesh.Stuck`, `Mesh.run`. Main results:
`Mesh.advances_wellFounded`, `Mesh.reaches_run`, `Mesh.finished_of_not_stuck`.
-/

namespace ShardCut

/-- A worker runs its program, or has left with the ending of it. -/
inductive Worker (n : Nat) (M α : Type) where
  | running (program : Program n M α)
  | left (ending : Ending α)

namespace Worker

variable {n : Nat} {M α : Type}

def hasLeft : Worker n M α → Bool
  | running _ => false
  | left _ => true

/-- A worker after one step of it. -/
inductive Follows : Worker n M α → Worker n M α → Prop where
  | resumes {p q : Program n M α} (h : p.Resumes q) : Follows (running p) (running q)
  | leaves (ending : Ending α) : Follows (left ending) (running (.finish ending))

theorem acc_left (ending : Ending α) : Acc (Follows (n := n) (M := M)) (left ending) :=
  ⟨_, fun _ h => nomatch h⟩

theorem acc_running (p : Program n M α) : Acc Follows (running p) := by
  induction p using Program.resumes_wellFounded.induction with
  | _ p ih =>
    constructor
    rintro _ (h | ending)
    · exact ih _ h
    · exact acc_left ending

/-- No worker moves for ever. -/
theorem follows_wellFounded : WellFounded (Follows (n := n) (M := M) (α := α)) :=
  ⟨fun | running p => acc_running p | left ending => acc_left ending⟩

end Worker

/-- The workers of a mesh, and the queue to each worker (first index) from each other. -/
structure Mesh (n : Nat) (M α : Type) where
  workers : Vector (Worker n M α) n
  queues : Vector (Vector (List M) n) n

namespace Mesh

variable {n : Nat} {M α : Type}

/-- The mesh in which every worker is about to start and nothing was sent. -/
def start (program : Fin n → Program n M α) : Mesh n M α where
  workers := Vector.ofFn fun i => .running (program i)
  queues := Vector.replicate n (Vector.replicate n [])

def worker (m : Mesh n M α) (i : Fin n) : Worker n M α := m.workers[i]

/-- The messages on their way to a worker from a peer, the oldest first. -/
def queue (m : Mesh n M α) (self peer : Fin n) : List M := m.queues[self][peer]

/-- The mesh with another state of a worker. -/
def setWorker (m : Mesh n M α) (i : Fin n) (w : Worker n M α) : Mesh n M α :=
  { m with workers := m.workers.set i w }

/-- The mesh with other messages on their way to a worker from a peer. -/
def setQueue (m : Mesh n M α) (self peer : Fin n) (messages : List M) : Mesh n M α :=
  { m with queues := m.queues.set self (m.queues[self].set peer messages) }

/-- The mesh that a worker has left with an ending, whatever its program was. -/
def leave (m : Mesh n M α) (i : Fin n) (ending : Ending α) : Mesh n M α :=
  m.setWorker i (.left ending)

@[simp] theorem worker_start (program : Fin n → Program n M α) (i : Fin n) :
    (start program).worker i = .running (program i) := by
  simp [worker, start]

@[simp] theorem queue_start (program : Fin n → Program n M α) (self peer : Fin n) :
    (start program).queue self peer = [] := by
  simp [queue, start]

/-- Of all workers only the one that is set changes. -/
theorem worker_setWorker (m : Mesh n M α) (i j : Fin n) (w : Worker n M α) :
    (m.setWorker i w).worker j = if i = j then w else m.worker j := by
  simp [worker, setWorker, Vector.getElem_set, Fin.ext_iff]

@[simp] theorem queue_setWorker (m : Mesh n M α) (i : Fin n) (w : Worker n M α)
    (self peer : Fin n) : (m.setWorker i w).queue self peer = m.queue self peer := rfl

@[simp] theorem worker_setQueue (m : Mesh n M α) (self peer i : Fin n) (messages : List M) :
    (m.setQueue self peer messages).worker i = m.worker i := rfl

theorem queue_setQueue (m : Mesh n M α) (self peer self' peer' : Fin n) (messages : List M) :
    (m.setQueue self peer messages).queue self' peer' =
      if self = self' ∧ peer = peer' then messages else m.queue self' peer' := by
  by_cases hs : self = self'
  · subst hs
    by_cases hp : peer = peer'
    · subst hp
      simp [queue, setQueue]
    · have hne : (peer : Nat) ≠ peer' := fun h => hp (Fin.ext h)
      simp [queue, setQueue, hp, Vector.getElem_set_ne, hne]
  · have hne : (self : Nat) ≠ self' := fun h => hs (Fin.ext h)
    simp [queue, setQueue, hs, Vector.getElem_set_ne, hne]

/-- The step of a worker. There is none if it has left, or waits for a message that may still
    come. -/
def step? (m : Mesh n M α) (i : Fin n) : Option (Mesh n M α) :=
  match m.worker i with
  | .left _ => none
  | .running (.finish ending) => some (m.setWorker i (.left ending))
  | .running (.send peer message resume) =>
    if (m.worker peer).hasLeft then some (m.setWorker i (.running (resume false)))
    else
      some ((m.setQueue peer i (m.queue peer i ++ [message])).setWorker i (.running (resume true)))
  | .running (.receive peer resume) =>
    match m.queue i peer with
    | message :: rest =>
      some ((m.setQueue i peer rest).setWorker i (.running (resume (some message))))
    | [] =>
      if (m.worker peer).hasLeft then some (m.setWorker i (.running (resume none))) else none

/-- Everything that a step of a worker can be. -/
inductive Moves (m : Mesh n M α) (i : Fin n) : Mesh n M α → Prop where
  | leaves {ending : Ending α} (h : m.worker i = .running (.finish ending)) :
      Moves m i (m.leave i ending)
  | sends {peer : Fin n} {message : M} {resume : Bool → Program n M α}
      (h : m.worker i = .running (.send peer message resume))
      (there : (m.worker peer).hasLeft = false) :
      Moves m i ((m.setQueue peer i (m.queue peer i ++ [message])).setWorker i
        (.running (resume true)))
  | sendsInVain {peer : Fin n} {message : M} {resume : Bool → Program n M α}
      (h : m.worker i = .running (.send peer message resume))
      (gone : (m.worker peer).hasLeft = true) :
      Moves m i (m.setWorker i (.running (resume false)))
  | receives {peer : Fin n} {resume : Option M → Program n M α} {message : M} {rest : List M}
      (h : m.worker i = .running (.receive peer resume))
      (next : m.queue i peer = message :: rest) :
      Moves m i ((m.setQueue i peer rest).setWorker i (.running (resume (some message))))
  | waitsInVain {peer : Fin n} {resume : Option M → Program n M α}
      (h : m.worker i = .running (.receive peer resume))
      (empty : m.queue i peer = []) (gone : (m.worker peer).hasLeft = true) :
      Moves m i (m.setWorker i (.running (resume none)))

/-- A step that a worker is found to take is one of its moves. -/
theorem moves_of_step? {m m' : Mesh n M α} {i : Fin n} (h : m.step? i = some m') :
    m.Moves i m' := by
  unfold step? at h
  split at h
  · cases h
  · next ending hw =>
    cases h
    exact .leaves hw
  · next peer message resume hw =>
    split at h
    · next gone =>
      cases h
      exact .sendsInVain hw gone
    · next there =>
      cases h
      exact .sends hw (Bool.eq_false_iff.mpr there)
  · next peer resume hw =>
    split at h
    · next message rest next =>
      cases h
      exact .receives hw next
    · next empty =>
      split at h
      · next gone =>
        cases h
        exact .waitsInVain hw empty gone
      · cases h

/-- A worker that cannot move has left, or waits for a peer that is there and has sent nothing. -/
theorem waits_of_step?_eq_none {m : Mesh n M α} {i : Fin n} (h : m.step? i = none) :
    (m.worker i).hasLeft = true ∨ ∃ peer resume, m.worker i = .running (.receive peer resume) ∧
      m.queue i peer = [] ∧ (m.worker peer).hasLeft = false := by
  unfold step? at h
  split at h
  · next ending hw => exact .inl (hw ▸ rfl)
  · cases h
  · split at h <;> cases h
  · next peer resume hw =>
    split at h
    · cases h
    · next empty =>
      split at h
      · cases h
      · next there => exact .inr ⟨peer, resume, hw, empty, Bool.eq_false_iff.mpr there⟩

/-- A mesh one step later: some worker has moved. -/
def Step (m m' : Mesh n M α) : Prop := ∃ i, m.step? i = some m'

/-- A mesh some steps later, in any interleaving. -/
inductive Reaches (m : Mesh n M α) : Mesh n M α → Prop where
  | refl : Reaches m m
  | tail {b c : Mesh n M α} : Reaches m b → Step b c → Reaches m c

/-- A mesh is finished when every worker has left. -/
def Finished (m : Mesh n M α) : Prop := ∀ i, (m.worker i).hasLeft = true

instance (m : Mesh n M α) : Decidable m.Finished :=
  inferInstanceAs (Decidable (∀ i, (m.worker i).hasLeft = true))

/-- A mesh is stuck when no worker can move although not all have left. -/
def Stuck (m : Mesh n M α) : Prop := (∀ i, m.step? i = none) ∧ ¬m.Finished

/-! ### Every interleaving ends -/

/-- A sequence of workers after one of them has moved. -/
inductive Advances : List (Worker n M α) → List (Worker n M α) → Prop where
  | head {w w' : Worker n M α} (ws : List (Worker n M α)) (h : w'.Follows w) :
      Advances (w' :: ws) (w :: ws)
  | tail (w : Worker n M α) {ws ws' : List (Worker n M α)} (h : Advances ws' ws) :
      Advances (w :: ws') (w :: ws)

theorem acc_advances_cons {w : Worker n M α} {ws : List (Worker n M α)}
    (hw : Acc Worker.Follows w) (hws : Acc Advances ws) : Acc Advances (w :: ws) := by
  induction hw generalizing ws with
  | intro w _ ihw =>
    induction hws with
    | intro ws haccs ihws =>
      constructor
      rintro _ (⟨_, h⟩ | ⟨_, h⟩)
      · exact ihw _ h ⟨_, haccs⟩
      · exact ihws _ h

/-- The workers of a mesh cannot go on forever. -/
theorem advances_wellFounded : WellFounded (Advances (n := n) (M := M) (α := α)) := by
  constructor
  intro ws
  induction ws with
  | nil => exact ⟨_, fun _ h => nomatch h⟩
  | cons w ws ih => exact acc_advances_cons (Worker.follows_wellFounded.apply w) ih

theorem advances_set {ws : List (Worker n M α)} {i : Nat} (hi : i < ws.length)
    {w : Worker n M α} (h : w.Follows ws[i]) : Advances (ws.set i w) ws := by
  induction ws generalizing i with
  | nil => exact absurd hi (Nat.not_lt_zero _)
  | cons v ws ih =>
    cases i with
    | zero => exact .head ws h
    | succ i => exact .tail v (ih (Nat.lt_of_succ_lt_succ hi) h)

/-- A mesh comes after another one when its workers do. -/
instance : WellFoundedRelation (Mesh n M α) where
  rel m' m := Advances m'.workers.toList m.workers.toList
  wf := InvImage.wf (fun m : Mesh n M α => m.workers.toList) advances_wellFounded

theorem advances_of_setWorker {m m' : Mesh n M α} {i : Fin n} {w : Worker n M α}
    (hm : m'.workers = m.workers.set i w) (h : w.Follows (m.worker i)) :
    WellFoundedRelation.rel m' m := by
  have hi : (i : Nat) < m.workers.toList.length := by simp
  have hw : m.workers.toList[(i : Nat)] = m.worker i := by simp [worker]
  have : m'.workers.toList = m.workers.toList.set i w := by
    rw [hm]
    exact Vector.toList_set i.isLt
  change Advances m'.workers.toList m.workers.toList
  rw [this]
  exact advances_set hi (hw ▸ h)

/-- Each step makes one worker smaller and leaves the others as they are. -/
theorem advances_of_step? {m m' : Mesh n M α} {i : Fin n} (h : m.step? i = some m') :
    WellFoundedRelation.rel m' m := by
  cases moves_of_step? h with
  | leaves hw => exact advances_of_setWorker rfl (hw ▸ .leaves _)
  | sends hw there => exact advances_of_setWorker rfl (hw ▸ .resumes (.send _ _ _ true))
  | sendsInVain hw gone => exact advances_of_setWorker rfl (hw ▸ .resumes (.send _ _ _ false))
  | receives hw next => exact advances_of_setWorker rfl (hw ▸ .resumes (.receive _ _ (some _)))
  | waitsInVain hw empty gone =>
    exact advances_of_setWorker rfl (hw ▸ .resumes (.receive _ _ none))

/-! ### One interleaving -/

/-- The step of the first worker that can move. -/
def firstStep? (m : Mesh n M α) : Option (Mesh n M α) := (List.finRange n).findSome? m.step?

/-- Lets the first worker that can move do so, until none can. -/
def run (m : Mesh n M α) : Mesh n M α :=
  match _h : m.firstStep? with
  | none => m
  | some m' => m'.run
termination_by m
decreasing_by
  obtain ⟨i, _, hi⟩ := List.exists_of_findSome?_eq_some _h
  exact advances_of_step? hi

/-- Steps in front of a run. -/
theorem Reaches.head {m b c : Mesh n M α} (h : m.Step b) (hbc : b.Reaches c) : m.Reaches c := by
  induction hbc with
  | refl => exact .tail .refl h
  | tail _ hs ih => exact .tail ih hs

/-- The run of a mesh is one of its interleavings. -/
theorem reaches_run (m : Mesh n M α) : m.Reaches m.run := by
  fun_induction run m with
  | case1 m h => exact .refl
  | case2 m m' h ih =>
    obtain ⟨i, _, hi⟩ := List.exists_of_findSome?_eq_some h
    exact .head ⟨i, hi⟩ ih

/-- At the end of a run no worker can move. -/
theorem step?_run (m : Mesh n M α) (i : Fin n) : m.run.step? i = none := by
  fun_induction run m with
  | case1 m h => exact List.findSome?_eq_none_iff.mp h i (List.mem_finRange i)
  | case2 m m' h ih => exact ih

/-- How a worker ended, if it has left. -/
def ending? (m : Mesh n M α) (i : Fin n) : Option (Ending α) :=
  match m.worker i with
  | .running _ => none
  | .left ending => some ending

/-- A worker has an ending just when it has left with it. -/
theorem ending?_eq_some_iff {m : Mesh n M α} {i : Fin n} {ending : Ending α} :
    m.ending? i = some ending ↔ m.worker i = .left ending := by
  unfold ending?
  split
  · next program hw => simp [hw]
  · next ending' hw => simp [hw]

/-- A mesh in which no worker can move is finished unless it is stuck. -/
theorem finished_of_not_stuck {m : Mesh n M α} (halted : ∀ i, m.step? i = none)
    (h : ¬m.Stuck) : m.Finished :=
  Decidable.byContradiction fun unfinished => h ⟨halted, unfinished⟩

/-- In a finished mesh every worker has an ending. -/
theorem Finished.exists_ending? {m : Mesh n M α} (h : m.Finished) (i : Fin n) :
    ∃ ending, m.ending? i = some ending := by
  have hi := h i
  cases hw : m.worker i with
  | running program =>
    rw [hw] at hi
    cases hi
  | left ending => exact ⟨ending, ending?_eq_some_iff.mpr hw⟩

end Mesh

end ShardCut
