import TwoPhaseCommit.Coordinator.System
import TwoPhaseCommit.Record

/-!
# Dialogues

The coordinator works in a dialogue with what surrounds it: it changes the system, puts a question
to an adapter, a callback or a log, and goes on with the answer. While a question is open the system
may change under it, for the one who is asked may call the coordinator again, and other tasks work
on. So a dialogue goes on from whatever system it finds along with the answer.

Within a completion other tasks also have their turn before each lock that is taken. An operation
that asks nobody is one step, even if it takes more than one lock: so are `System.begin`,
`System.expireIfDue` with its count, and `Context.begin`, `Context.takeOwned` and `Context.resume`.
So is `Completion.unregister`, which changes the list of a manager and its counters together.
-/

namespace TwoPhaseCommit

/-- What the coordinator asks of its surroundings. -/
inductive Question
  /-- Phase one: can the work on a transaction be committed? -/
  | prepare (adapter : AdapterKey) (tx : TxId)
  | commit (adapter : AdapterKey) (tx : TxId) (onePhase : Bool)
  | rollback (adapter : AdapterKey) (tx : TxId)
  /-- Which transactions are prepared and wait for their outcome? -/
  | inDoubt (adapter : AdapterKey)
  | append (log : LogRef) (record : LogRecord)
  | readAll (log : LogRef)
  | replace (log : LogRef) (records : List LogRecord)
  | beforeCompletion (callback : Synchronization)
  | afterCompletion (callback : Synchronization) (status : Status)
  /-- Nobody is asked: other tasks may go on before the next lock is taken. -/
  | turn
deriving DecidableEq

@[reducible] def Question.Answer : Question → Type
  | prepare .. => Except ResourceError Vote
  | commit .. | rollback .. | beforeCompletion _ | afterCompletion .. => Except ResourceError Unit
  | inDoubt _ => Except ResourceError (List TxId)
  | append .. | replace .. => Except StorageError Unit
  | readAll _ => Except StorageError (List LogRecord)
  | turn => Unit

/-- A dialogue: at its end, or at a question. -/
inductive Dialogue (α : Type)
  | done (system : System) (result : α)
  /-- A question, and how the dialogue goes on from the system and the answer that it then finds. -/
  | ask (system : System) (question : Question) (next : System → question.Answer → Dialogue α)

namespace Dialogue

variable {α β σ : Type}

/-- Go on after the end of a dialogue. -/
def bind (f : System → α → Dialogue β) : Dialogue α → Dialogue β
  | done s a => f s a
  | ask s q next => ask s q fun s a => bind f (next s a)

@[simp] theorem bind_done (f : System → α → Dialogue β) (s : System) (a : α) :
    bind f (done s a) = f s a := rfl

@[simp] theorem bind_ask (f : System → α → Dialogue β) (s : System) (q : Question)
    (next : System → q.Answer → Dialogue α) :
    bind f (ask s q next) = ask s q fun s a => bind f (next s a) := rfl

theorem bind_assoc {γ : Type} (f : System → α → Dialogue β) (g : System → β → Dialogue γ)
    (d : Dialogue α) : bind g (bind f d) = bind (fun s a => bind g (f s a)) d := by
  induction d with
  | done s a => rfl
  | ask s q next ih => simp [ih]

theorem bind_done_right (d : Dialogue α) : bind done d = d := by
  induction d with
  | done s a => rfl
  | ask s q next ih => simp [ih]

/-- Surroundings answer questions; they have a state of their own and may change the system. -/
abbrev Surroundings (σ : Type) := (q : Question) → System → σ → q.Answer × System × σ

/-- Hold a dialogue with given surroundings. -/
def run (answer : Surroundings σ) : Dialogue α → σ → α × System × σ
  | done s a, w => (a, s, w)
  | ask s q next, w =>
    let (a, s, w) := answer q s w
    run answer (next s a) w

/-- To hold a dialogue that goes on is to hold one part and then the other. -/
theorem run_bind (answer : Surroundings σ) (f : System → α → Dialogue β) (d : Dialogue α) (w : σ) :
    (bind f d).run answer w =
      (f (d.run answer w).2.1 (d.run answer w).1).run answer (d.run answer w).2.2 := by
  induction d generalizing w with
  | done s a => rfl
  | ask s q next ih => simp [run, ih]

end Dialogue

/-- A procedure of the coordinator: from the system it starts in, a dialogue. -/
def Proc (α : Type) := System → Dialogue α

namespace Proc

variable {α β : Type}

instance : Monad Proc where
  pure a := fun s => .done s a
  bind x f := fun s => (x s).bind fun s a => f a s

instance : LawfulMonad Proc := LawfulMonad.mk' Proc
  (fun x => funext fun s => Dialogue.bind_done_right (x s))
  (fun _ _ => rfl)
  (fun x f g => funext fun s => Dialogue.bind_assoc (fun s a => f a s) (fun s b => g b s) (x s))

def view (f : System → α) : Proc α := fun s => .done s (f s)

def change (f : System → System) : Proc Unit := fun s => .done (f s) ()

/-- Change the system and answer, in one step that no other task comes between. -/
def step (f : System → α × System) : Proc α := fun s => .done (f s).2 (f s).1

/-- Ask, and answer with the answer. -/
def ask (q : Question) : Proc q.Answer := fun s => .ask s q fun s a => .done s a

/-! ### Questions -/

/-- Let other tasks go on. -/
def turn : Proc Unit := ask .turn

def prepare (a : AdapterKey) (tx : TxId) : Proc (Except ResourceError Vote) := ask (.prepare a tx)

def commitAt (a : AdapterKey) (tx : TxId) (onePhase : Bool) : Proc (Except ResourceError Unit) :=
  ask (.commit a tx onePhase)

def rollbackAt (a : AdapterKey) (tx : TxId) : Proc (Except ResourceError Unit) :=
  ask (.rollback a tx)

/-- Ask which transactions wait for their outcome at a resource. -/
def inDoubt (a : AdapterKey) : Proc (Except ResourceError (List TxId)) := ask (.inDoubt a)

def append (log : LogRef) (r : LogRecord) : Proc (Except StorageError Unit) := ask (.append log r)

def readAll (log : LogRef) : Proc (Except StorageError (List LogRecord)) := ask (.readAll log)

def replace (log : LogRef) (rs : List LogRecord) : Proc (Except StorageError Unit) :=
  ask (.replace log rs)

def beforeCompletion (c : Synchronization) : Proc (Except ResourceError Unit) :=
  ask (.beforeCompletion c)

def afterCompletion (c : Synchronization) (s : Status) : Proc (Except ResourceError Unit) :=
  ask (.afterCompletion c s)

end Proc

end TwoPhaseCommit
