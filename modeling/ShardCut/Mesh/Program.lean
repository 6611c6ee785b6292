import ShardCut.Failure

/-!
Worker programs. A program of a mesh of `n` workers is a tree: it has ended, or it sends a message
to a peer, or it waits for one, and goes on as the peer's presence and the message decide. A program
holds nothing else, so what it does depends only on what it was told.

Programs are a monad in which a failure ends the program. `Program.attempt` turns such an end into a
value, for callers that want to go on.

Main definitions: `Ending`, `Program`, `Program.bind`, `Program.attempt`. Main results:
`Program.bind_assoc`, `Program.resumes_wellFounded`.
-/

namespace ShardCut

/-- How a program ended. -/
inductive Ending (α : Type) where
  | returned (value : α)
  | failed (failure : Failure)
  | aborted
deriving DecidableEq, Repr

/-- A program of a mesh of `n` workers that exchange messages of type `M`. -/
inductive Program (n : Nat) (M α : Type) where
  /-- The program has ended. -/
  | finish (ending : Ending α)
  /-- Sends a message, and learns whether the peer is still there. -/
  | send (peer : Fin n) (message : M) (resume : Bool → Program n M α)
  /-- Waits for the next message of a peer, and learns instead if there will be none. -/
  | receive (peer : Fin n) (resume : Option M → Program n M α)

namespace Program

variable {n : Nat} {M α β : Type}

def pure (value : α) : Program n M α := finish (.returned value)

def fail (failure : Failure) : Program n M α := finish (.failed failure)

def abort : Program n M α := finish .aborted

/-- Goes on with the value of a program. A program that failed or aborted stays ended. -/
def bind (p : Program n M α) (next : α → Program n M β) : Program n M β :=
  match p with
  | finish (.returned value) => next value
  | finish (.failed failure) => fail failure
  | finish .aborted => abort
  | send peer message resume => send peer message fun there => (resume there).bind next
  | receive peer resume => receive peer fun message? => (resume message?).bind next

instance : Monad (Program n M) where
  pure := Program.pure
  bind := Program.bind

@[simp] theorem finish_returned_bind (value : α) (next : α → Program n M β) :
    ((finish (.returned value) : Program n M α) >>= next) = next value := rfl

@[simp] theorem finish_failed_bind (failure : Failure) (next : α → Program n M β) :
    ((finish (.failed failure) : Program n M α) >>= next) = finish (.failed failure) := rfl

@[simp] theorem finish_aborted_bind (next : α → Program n M β) :
    ((finish .aborted : Program n M α) >>= next) = finish .aborted := rfl

theorem bind_pure (p : Program n M α) : p.bind pure = p := by
  induction p with
  | finish ending =>
    cases ending with
    | returned value => rfl
    | failed failure => rfl
    | aborted => rfl
  | send peer message resume ih => exact congrArg (send peer message) (funext ih)
  | receive peer resume ih => exact congrArg (receive peer) (funext ih)

/-- Programs can be put together in any grouping. -/
theorem bind_assoc {γ : Type} (p : Program n M α) (f : α → Program n M β)
    (g : β → Program n M γ) : (p.bind f).bind g = p.bind fun value => (f value).bind g := by
  induction p with
  | finish ending =>
    cases ending with
    | returned value => rfl
    | failed failure => rfl
    | aborted => rfl
  | send peer message resume ih => exact congrArg (send peer message) (funext ih)
  | receive peer resume ih => exact congrArg (receive peer) (funext ih)

instance : LawfulMonad (Program n M) :=
  LawfulMonad.mk' (Program n M) bind_pure (fun _ _ => rfl) bind_assoc

/-- Gives back the failure of a program as a value. An abort stays an abort. -/
def attempt : Program n M α → Program n M (Except Failure α)
  | finish (.returned value) => pure (.ok value)
  | finish (.failed failure) => pure (.error failure)
  | finish .aborted => abort
  | send peer message resume => send peer message fun there => (resume there).attempt
  | receive peer resume => receive peer fun message? => (resume message?).attempt

/-- The program of a computation without messages. If the computation aborts, so does the
    program. -/
def ofExcept : Except Failure α → Program n M α
  | .ok value => pure value
  | .error (.abort _) => abort
  | .error failure => fail failure

/-- A program comes after a step of another one when it is what that one goes on as. -/
inductive Resumes : Program n M α → Program n M α → Prop where
  | send (peer : Fin n) (message : M) (resume : Bool → Program n M α) (there : Bool) :
      Resumes (resume there) (.send peer message resume)
  | receive (peer : Fin n) (resume : Option M → Program n M α) (message? : Option M) :
      Resumes (resume message?) (.receive peer resume)

/-- No program goes on for ever: its steps lead into smaller and smaller trees. -/
theorem resumes_wellFounded : WellFounded (Resumes (n := n) (M := M) (α := α)) := by
  constructor
  intro p
  induction p with
  | finish ending => exact ⟨_, fun _ h => nomatch h⟩
  | send peer message resume ih =>
    constructor
    rintro _ ⟨⟩
    exact ih _
  | receive peer resume ih =>
    constructor
    rintro _ ⟨⟩
    exact ih _

end Program

end ShardCut
