import ShardCut.Workers

/-!
What all outputs of an app have in common. If each value that a program may return has a property,
whatever the program is told on the way, then each output of the workers has it, in any
interleaving and however many of them fail.

Main definitions: `Program.Returns`. Main results: `Program.Returns.bind`, `returns_of_reaches`,
`ShardedGraph.Outcome.of_returns`.
-/

namespace ShardCut

variable {n : Nat} {M α β : Type} {P : α → Prop}

namespace Program

/-- A value that the program returns has the property, whatever the program is told. -/
def Returns (P : α → Prop) : Program n M α → Prop
  | finish ending => ∀ value, ending = .returned value → P value
  | send _ _ resume => ∀ there, (resume there).Returns P
  | receive _ resume => ∀ message?, (resume message?).Returns P

theorem returns_pure {value : α} (h : P value) :
    (Program.pure value : Program n M α).Returns P := by
  intro value' same
  cases same
  exact h

theorem returns_true (p : Program n M α) : p.Returns fun _ => True := by
  induction p with
  | finish ending => exact fun _ _ => trivial
  | send peer message resume ih => exact ih
  | receive peer resume ih => exact ih

/-- What a program in two parts returns is what the second one does. -/
theorem Returns.bind {Q : β → Prop} {p : Program n M α} {next : α → Program n M β}
    (h : p.Returns P) (later : ∀ value, P value → (next value).Returns Q) :
    (p >>= next).Returns Q := by
  induction p with
  | finish ending =>
    cases ending with
    | returned value => exact later value (h value rfl)
    | failed failure => exact fun _ same => nomatch same
    | aborted => exact fun _ same => nomatch same
  | send peer message resume ih => exact fun there => ih there (h there)
  | receive peer resume ih => exact fun message? => ih message? (h message?)

/-- What comes before the last step of a program does not count for what it returns. -/
theorem returns_bind {Q : β → Prop} (p : Program n M α) {next : α → Program n M β}
    (later : ∀ value, (next value).Returns Q) : (p >>= next).Returns Q :=
  p.returns_true.bind fun value _ => later value

theorem returns_ofExcept {computed : Except Failure α}
    (h : ∀ value, computed = .ok value → P value) :
    (ofExcept computed : Program n M α).Returns P := by
  cases computed with
  | ok value => exact returns_pure (h value rfl)
  | error failure => cases failure <;> exact fun _ same => nomatch same

end Program

/-- A value that the worker returns, or has returned, has the property. -/
def Worker.Returns (P : α → Prop) : Worker n M α → Prop
  | running program => program.Returns P
  | left ending => ∀ value, ending = .returned value → P value

namespace Mesh

variable {m m' : Mesh n M α}

theorem returns_setWorker (h : ∀ j, (m.worker j).Returns P) {i : Fin n} {w : Worker n M α}
    (hw : w.Returns P) (j : Fin n) : ((m.setWorker i w).worker j).Returns P := by
  rw [worker_setWorker]
  split
  · exact hw
  · exact h j

/-- No move of a worker breaks a property of what is returned. -/
theorem returns_of_moves (h : ∀ j, (m.worker j).Returns P) {i : Fin n} (moves : m.Moves i m') :
    ∀ j, (m'.worker j).Returns P := by
  have hi := h i
  cases moves with
  | leaves hw =>
    rw [hw] at hi
    exact returns_setWorker h hi
  | sends hw there =>
    rw [hw] at hi
    exact returns_setWorker (m := m.setQueue _ _ _) h (hi true)
  | sendsInVain hw gone =>
    rw [hw] at hi
    exact returns_setWorker h (hi false)
  | receives hw next =>
    rw [hw] at hi
    exact returns_setWorker (m := m.setQueue _ _ _) h (hi _)
  | waitsInVain hw empty gone =>
    rw [hw] at hi
    exact returns_setWorker h (hi none)

/-- No run breaks a property of what is returned. -/
theorem returns_of_reaches (h : ∀ j, (m.worker j).Returns P) (run : m.Reaches m') :
    ∀ j, (m'.worker j).Returns P := by
  induction run with
  | refl => exact h
  | tail _ step ih =>
    obtain ⟨i, moved⟩ := step
    exact returns_of_moves ih (moves_of_step? moved)

end Mesh

/-- Outputs that are given back were reported by workers. -/
theorem Report.ok_mem_of_settle {reports : List (Report α)} {outputs : List α} {output : α}
    (h : settle reports = .ok outputs) (mem : output ∈ outputs) : .ok output ∈ reports := by
  unfold settle at h
  split at h
  · cases h
  · cases h
    obtain ⟨report, reported, same⟩ := List.mem_filterMap.mp mem
    cases report with
    | ok output' =>
      cases same
      exact reported
    | error failure => cases same

/-- The outputs of an app have every property that its workers keep to. -/
theorem ShardedGraph.Outcome.of_returns {graph : ShardedGraph} {app : App M α} {outputs : List α}
    (run : graph.Outcome app (.ok outputs))
    (returns : ∀ i, (app.program i (graph.shards.get i)).Returns P) :
    ∀ output ∈ outputs, P output := by
  obtain ⟨mesh, reached, -, settled⟩ := run
  have start (j : Fin graph.shards.length) : ((graph.meshOf app).worker j).Returns P := by
    rw [meshOf, Mesh.worker_start]
    exact returns j
  intro output mem
  obtain ⟨i, -, report⟩ := List.mem_map.mp (Report.ok_mem_of_settle settled mem)
  have kept := Mesh.returns_of_reaches start reached i
  cases ending : mesh.ending? i with
  | none =>
    rw [ending] at report
    cases report
  | some ending' =>
    rw [ending] at report
    rw [Mesh.ending?_eq_some_iff.mp ending] at kept
    cases ending' with
    | returned value =>
      cases report
      exact kept output rfl
    | failed failure => cases report
    | aborted => cases report

end ShardCut
