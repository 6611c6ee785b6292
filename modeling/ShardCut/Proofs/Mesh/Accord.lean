import ShardCut.Mesh
import ShardCut.Proofs.Mesh.Agenda

/-!
A mesh in accord with an agenda. Each worker keeps to its part, and what is queued from one worker
to another is what the agenda lets the one send beyond what the other has received. Every step of
every worker preserves this, so it holds after any interleaving of workers that start in accord.

In such a mesh a worker can only wait for a peer that is behind it, so some worker can always move,
and every ending is one that the workers' programs are allowed.

Main definitions: `Accords`. Main results: `Accords.step`, `Accords.reaches`, `Accords.not_stuck`,
`Accords.finished_run`.
-/

namespace ShardCut

variable {n : Nat} {M α : Type}

namespace Agenda

/-- The messages queued from a worker that has sent so many, to one that has received so many. -/
def InFlight (agenda : Agenda n M) (sender : Fin n) (received sent : Nat)
    (messages : List M) : Prop :=
  received ≤ sent ∧ messages = agenda.span sender received sent

variable {agenda : Agenda n M} {sender : Fin n} {received sent : Nat} {messages : List M}

theorem inFlight_start (sender : Fin n) : agenda.InFlight sender 0 0 [] := by
  simp [InFlight]

/-- Another message of the agenda joins the queue. -/
theorem InFlight.append (h : agenda.InFlight sender received sent messages) :
    agenda.InFlight sender received (sent + 1) (messages ++ [agenda.message sender sent]) := by
  obtain ⟨hle, rfl⟩ := h
  exact ⟨Nat.le_succ_of_le hle, (agenda.span_succ sender hle).symm⟩

/-- The oldest message leaves the queue: it is the next one of the agenda. -/
theorem InFlight.uncons {message : M} {rest : List M}
    (h : agenda.InFlight sender received sent (message :: rest)) :
    received < sent ∧ message = agenda.message sender received ∧
      agenda.InFlight sender (received + 1) sent rest := by
  obtain ⟨hle, heq⟩ := h
  have hlt : received < sent := by
    apply Nat.lt_of_le_of_ne hle
    intro hsame
    rw [hsame, span_self] at heq
    cases heq
  rw [span_of_lt sender hlt] at heq
  obtain ⟨rfl, rfl⟩ := List.cons.inj heq
  exact ⟨hlt, rfl, hlt, rfl⟩

/-- If no message is under way, all that were sent have been received. -/
theorem InFlight.sent_eq (h : agenda.InFlight sender received sent []) : sent = received := by
  obtain ⟨hle, heq⟩ := h
  exact Nat.le_antisymm ((span_eq_nil_iff sender).mp heq.symm) hle

end Agenda

/-- The condition at the end of a whole program: besides its own one, nobody can complete another
    round with the worker. -/
def Program.Finally (agenda : Agenda n M) (self : Fin n) (ends : Ending α → Progress n → Prop)
    (ending : Ending α) (c : Progress n) : Prop :=
  ends ending c ∧ c.Past agenda self

/-- A running worker has a program that keeps to the agenda, and one that left has ended well. -/
def Worker.Keeps (agenda : Agenda n M) (self : Fin n) (ends : Ending α → Progress n → Prop) :
    Worker n M α → Progress n → Prop
  | running program, c => program.Keeps agenda self (Program.Finally agenda self ends) c
  | left ending, c => Program.Finally agenda self ends ending c

namespace Mesh

/-- The workers, having come so far, keep to the agenda, and the queues hold what is on its way.
    Contact is lost only after some worker has left without such a loss. -/
structure Accords (agenda : Agenda n M) (ends : Fin n → Ending α → Progress n → Prop)
    (m : Mesh n M α) (progress : Fin n → Progress n) : Prop where
  keeps : ∀ i, (m.worker i).Keeps agenda i (ends i) (progress i)
  sent_le : ∀ i j, j ≠ i → (progress i).sent j ≤ agenda.bound i
  queue : ∀ i j, j ≠ i →
    agenda.InFlight j ((progress i).received j) ((progress j).sent i) (m.queue i j)
  cause : ∀ i, (progress i).lost = true →
    ∃ j ending, m.worker j = .left ending ∧ (progress j).lost = false

variable {agenda : Agenda n M} {ends : Fin n → Ending α → Progress n → Prop}
  {m m' : Mesh n M α} {progress : Fin n → Progress n}

theorem accords_start {program : Fin n → Program n M α}
    (h : ∀ i, (program i).Keeps agenda i (Program.Finally agenda i (ends i)) .start) :
    (start program).Accords agenda ends fun _ => .start where
  keeps i := by
    rw [worker_start]
    exact h i
  sent_le _ _ _ := Nat.zero_le _
  queue i j _ := by
    rw [queue_start]
    exact Agenda.inFlight_start j
  cause _ h := nomatch h

namespace Accords

/-- A worker that left has sent and received as much as any round can use. -/
theorem past_of_hasLeft (h : m.Accords agenda ends progress) {i : Fin n}
    (left : (m.worker i).hasLeft = true) : (progress i).Past agenda i := by
  have hi := h.keeps i
  cases hw : m.worker i with
  | running program =>
    rw [hw] at left
    cases left
  | left ending =>
    rw [hw] at hi
    exact hi.2

/-- A peer that is lost has left without a loss, or some other worker has. -/
theorem cause_of_hasLeft (h : m.Accords agenda ends progress) {i : Fin n}
    (left : (m.worker i).hasLeft = true) :
    ∃ j ending, m.worker j = .left ending ∧ (progress j).lost = false := by
  cases hw : m.worker i with
  | running program =>
    rw [hw] at left
    cases left
  | left ending =>
    cases hl : (progress i).lost with
    | false => exact ⟨i, ending, hw, hl⟩
    | true => exact h.cause i hl

/-- One worker comes further, in a step that touches only its own queues. -/
theorem advance (h : m.Accords agenda ends progress) {i : Fin n} {p : Program n M α}
    {w : Worker n M α} {c : Progress n} (running : m.worker i = .running p)
    (workers : ∀ j, m'.worker j = if i = j then w else m.worker j)
    (keeps : w.Keeps agenda i (ends i) c)
    (sent_le : ∀ j, j ≠ i → c.sent j ≤ agenda.bound i)
    (incoming : ∀ j, j ≠ i →
      agenda.InFlight j (c.received j) ((progress j).sent i) (m'.queue i j))
    (outgoing : ∀ j, j ≠ i →
      agenda.InFlight i ((progress j).received i) (c.sent j) (m'.queue j i))
    (others : ∀ j k, j ≠ i → k ≠ i → m'.queue j k = m.queue j k)
    (cause : c.lost = true → ∃ j ending, m.worker j = .left ending ∧ (progress j).lost = false) :
    m'.Accords agenda ends (Function.update progress i c) where
  keeps j := by
    rw [workers]
    by_cases hj : i = j
    · subst hj
      simpa using keeps
    · simpa [hj, Function.update_of_ne (Ne.symm hj)] using h.keeps j
  sent_le j k hk := by
    by_cases hj : j = i
    · subst hj
      simpa using sent_le k hk
    · simpa [Function.update_of_ne hj] using h.sent_le j k hk
  queue j k hk := by
    by_cases hj : j = i
    · subst hj
      simpa [Function.update_of_ne hk] using incoming k hk
    · by_cases hki : k = i
      · subst hki
        simpa [Function.update_of_ne hj] using outgoing j hj
      · simpa [Function.update_of_ne hj, Function.update_of_ne hki, others j k hj hki]
          using h.queue j k hk
  cause j hj := by
    have old : ∃ k ending, m.worker k = .left ending ∧ (progress k).lost = false := by
      by_cases hji : j = i
      · subst hji
        exact cause (by simpa using hj)
      · exact h.cause j (by simpa [Function.update_of_ne hji] using hj)
    obtain ⟨k, ending, hk, hlost⟩ := old
    -- The worker that moves is still running, so it is not the one that left.
    have hki : k ≠ i := by
      rintro rfl
      rw [running] at hk
      cases hk
    exact ⟨k, ending, by rw [workers, if_neg (Ne.symm hki), hk],
      by rwa [Function.update_of_ne hki]⟩

/-- One worker comes further and leaves all queues as they are. -/
theorem advance_alone (h : m.Accords agenda ends progress) {i : Fin n} {p : Program n M α}
    {w : Worker n M α} {c : Progress n} (running : m.worker i = .running p)
    (keeps : w.Keeps agenda i (ends i) c) (sent : c.sent = (progress i).sent)
    (received : c.received = (progress i).received)
    (cause : c.lost = true → ∃ j ending, m.worker j = .left ending ∧ (progress j).lost = false) :
    (m.setWorker i w).Accords agenda ends (Function.update progress i c) := by
  refine h.advance running (worker_setWorker m i · w) keeps ?_ ?_ ?_ (fun _ _ _ _ => rfl) cause
  · rw [sent]
    exact h.sent_le i
  · rw [received]
    exact h.queue i
  · intro j hj
    rw [sent]
    exact h.queue j i hj.symm

/-- One worker sends the message of its next round, which joins the queue to the peer. -/
theorem advance_send (h : m.Accords agenda ends progress) {i peer : Fin n} {p : Program n M α}
    {w : Worker n M α} (running : m.worker i = .running p) (hne : peer ≠ i)
    (due : (progress i).sent peer < agenda.bound i)
    (keeps : w.Keeps agenda i (ends i) ((progress i).afterSend peer)) :
    ((m.setQueue peer i (m.queue peer i ++
      [agenda.message i ((progress i).sent peer)])).setWorker i w).Accords agenda ends
        (Function.update progress i ((progress i).afterSend peer)) := by
  refine h.advance running (worker_setWorker _ i · w) keeps ?_ ?_ ?_ ?_ (h.cause i)
  · intro j hj
    rw [Progress.afterSend_sent]
    split
    · exact due
    · exact h.sent_le i j hj
  · intro j hj
    simpa [queue_setQueue, hne] using h.queue i j hj
  · intro j hj
    have hq := h.queue j i hj.symm
    rw [Progress.afterSend_sent]
    by_cases hjp : j = peer
    · subst hjp
      simpa [queue_setQueue] using hq.append
    · simpa [queue_setQueue, hjp, Ne.symm hjp] using hq
  · intro j k _ hk
    simp [queue_setQueue, Ne.symm hk]

/-- One worker takes the oldest message from the queue from a peer. -/
theorem advance_receive (h : m.Accords agenda ends progress) {i peer : Fin n}
    {p : Program n M α} {w : Worker n M α} {rest : List M} (running : m.worker i = .running p)
    (keeps : w.Keeps agenda i (ends i) ((progress i).afterReceive peer))
    (left : agenda.InFlight peer ((progress i).received peer + 1) ((progress peer).sent i) rest) :
    ((m.setQueue i peer rest).setWorker i w).Accords agenda ends
      (Function.update progress i ((progress i).afterReceive peer)) := by
  refine h.advance running (worker_setWorker _ i · w) keeps (h.sent_le i) ?_ ?_ ?_ (h.cause i)
  · intro j hj
    rw [Progress.afterReceive_received]
    by_cases hjp : j = peer
    · subst hjp
      simpa [queue_setQueue] using left
    · simpa [queue_setQueue, hjp, Ne.symm hjp] using h.queue i j hj
  · intro j hj
    simpa [queue_setQueue, Ne.symm hj] using h.queue j i hj.symm
  · intro j k hj _
    simp [queue_setQueue, Ne.symm hj]

/-- Every step of a worker preserves accord. -/
theorem step (h : m.Accords agenda ends progress) {i : Fin n} (moves : m.Moves i m') :
    ∃ progress', m'.Accords agenda ends progress' := by
  have hi := h.keeps i
  cases moves with
  | @leaves ending hw =>
    rw [hw] at hi
    exact ⟨_, h.advance_alone hw hi rfl rfl (h.cause i)⟩
  | @sends peer message resume hw there =>
    rw [hw] at hi
    obtain ⟨hne, hlt, rfl, hthere, -⟩ := hi
    exact ⟨_, h.advance_send hw hne hlt hthere⟩
  | @sendsInVain peer message resume hw gone =>
    rw [hw] at hi
    obtain ⟨hne, -, -, -, hgone⟩ := hi
    -- The peer has received no more than was sent, and that is as much as any round can use.
    have broken : agenda.Broken ((progress i).sent peer) :=
      (h.past_of_hasLeft gone i hne.symm).2.mono (h.queue peer i hne.symm).1
    exact ⟨_, h.advance_alone hw (hgone broken) rfl rfl fun _ => h.cause_of_hasLeft gone⟩
  | @receives peer resume message rest hw next =>
    rw [hw] at hi
    obtain ⟨hne, -, hsome, -⟩ := hi
    have hq := h.queue i peer hne
    rw [next] at hq
    obtain ⟨hlt, rfl, hrest⟩ := hq.uncons
    have due := Nat.lt_of_lt_of_le hlt (h.sent_le peer i hne.symm)
    exact ⟨_, h.advance_receive hw (hsome due) hrest⟩
  | @waitsInVain peer resume hw empty gone =>
    rw [hw] at hi
    obtain ⟨hne, -, -, hnone⟩ := hi
    have hq := h.queue i peer hne
    rw [empty] at hq
    -- Everything that the peer has sent was received, and that is as much as any round can use.
    have broken : agenda.Broken ((progress i).received peer) := by
      rw [← hq.sent_eq]
      exact (h.past_of_hasLeft gone i hne.symm).1
    exact ⟨_, h.advance_alone hw (hnone broken) rfl rfl fun _ => h.cause_of_hasLeft gone⟩

/-- Accord outlasts every interleaving. -/
theorem reaches (h : m.Accords agenda ends progress) (run : m.Reaches m') :
    ∃ progress', m'.Accords agenda ends progress' := by
  induction run with
  | refl => exact ⟨progress, h⟩
  | tail _ hs ih =>
    obtain ⟨progress', h'⟩ := ih
    obtain ⟨i, hi⟩ := hs
    exact h'.step (moves_of_step? hi)

/-- A worker waits only for a peer whose own next message is due in an earlier round. -/
theorem received_lt_of_waits (h : m.Accords agenda ends progress) {i peer peer' : Fin n}
    {resume resume' : Option M → Program n M α}
    (hi : m.worker i = .running (.receive peer resume)) (empty : m.queue i peer = [])
    (hpeer : m.worker peer = .running (.receive peer' resume')) :
    (progress peer).received peer' < (progress i).received peer := by
  have ki := h.keeps i
  have kp := h.keeps peer
  rw [hi] at ki
  rw [hpeer] at kp
  have hq := h.queue i peer ki.1
  rw [empty] at hq
  rw [← hq.sent_eq]
  exact kp.2.1 i ki.1.symm

/-- Some worker can move until all have left. -/
theorem not_stuck (h : m.Accords agenda ends progress) : ¬m.Stuck := by
  intro given
  rcases given with ⟨none, unfinished⟩
  -- Of two workers that wait for each other in turn, the second one is due in an earlier round.
  have waits (round : Nat) : ∀ i peer resume, m.worker i = .running (.receive peer resume) →
      (progress i).received peer = round → False := by
    induction round using Nat.strongRecOn with
    | _ round ih =>
      intro i peer resume hi hround
      obtain left | ⟨peer', resume', hi', empty, there⟩ := waits_of_step?_eq_none (none i)
      · rw [hi] at left
        cases left
      · rw [hi] at hi'
        cases hi'
        obtain left | ⟨peer'', resume'', hp, -, -⟩ := waits_of_step?_eq_none (none peer)
        · rw [left] at there
          cases there
        · exact ih _ (hround ▸ h.received_lt_of_waits hi empty hp) peer peer'' resume'' hp rfl
  apply unfinished
  intro i
  obtain left | ⟨peer, resume, hi, -, -⟩ := waits_of_step?_eq_none (none i)
  · exact left
  · exact (waits _ i peer resume hi rfl).elim

/-- All workers have left at the end of a run. -/
theorem finished_run (h : m.Accords agenda ends progress) : m.run.Finished := by
  obtain ⟨progress', h'⟩ := h.reaches m.reaches_run
  exact finished_of_not_stuck m.step?_run h'.not_stuck

end Accords

end Mesh

end ShardCut
