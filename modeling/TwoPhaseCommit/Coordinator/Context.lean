import TwoPhaseCommit.Coordinator.Completion

/-!
# Contexts

A context stands for a task, one logical unit of work, and holds at most one transaction for it. A
transaction that a context holds is owned by its task; suspending ends that, and any context may
resume the transaction then.
-/

namespace TwoPhaseCommit

/-- The transaction context of a task. -/
structure Context where
  manager : ManagerRef
  task : TaskId
  current : Option TxRef := none
  /-- The timeout of transactions begun here, if it is not the manager's default. -/
  timeout : Option Duration := none
deriving DecidableEq

namespace Context

def new (m : ManagerRef) (s : System) : Context × System :=
  ({ manager := m, task := ⟨s.nextTask⟩ }, { s with nextTask := s.nextTask + 1 })

/-- The transaction that keeps a context from taking another: one that has not ended. -/
def held? (c : Context) (s : System) : Option Transaction :=
  (c.current.map s.tx).filter fun t => !t.status.isTerminal

/-- Begin a transaction and hold it. Nobody owns a new transaction, so that the claim succeeds; if it
failed, the answer would not tell of the system in which the transaction is registered. -/
def begin (c : Context) (s : System) : Except TxError (TxRef × Context × System) :=
  match c.held? s with
  | some t => .error (.notSupported (.nested c.task t.id))
  | none => do
    let (r, s) ← s.begin c.manager c.timeout
    match (s.tx r).claim c.task with
    | .ok t => return (r, { c with current := some r }, s.modifyTx r fun _ => t)
    | .error owner => throw (.system (.freshAlreadyOwned (s.tx r).id owner))

/-- Give up the transaction that is held, for the sake of a call that completes it. -/
def takeOwned (call : String) (c : Context) (s : System) :
    Except TxError (TxRef × Context × System) :=
  match c.current with
  | none => .error (.illegalState (.noneAssociated call))
  | some r =>
    if (s.tx r).owner = some c.task then
      .ok (r, { c with current := none }, s.modifyTx r (·.release c.task))
    else .error (.illegalState (.notOwner call (s.tx r).id))

def complete (call : String) (how : ManagerRef → TxRef → Proc (Except TxError Unit)) (c : Context) :
    Proc (Except TxError Unit × Context) := do
  match c.takeOwned call (← Proc.view id) with
  | .error e => return (.error e, c)
  | .ok (r, c, s) =>
    Proc.change fun _ => s
    return (← how c.manager r, c)

def commit (c : Context) : Proc (Except TxError Unit × Context) :=
  c.complete "commit" Coordinator.commit

def rollback (c : Context) : Proc (Except TxError Unit × Context) :=
  c.complete "rollback" Coordinator.rollback

def setRollbackOnly (c : Context) (s : System) : Except TxError System :=
  match c.current with
  | none => .error (.illegalState (.noneAssociated "set_rollback_only"))
  | some r => do
    let t ← (s.tx r).markRollbackOnly .markedRollbackOnly
    return s.modifyTx r fun _ => t

def status (c : Context) (s : System) : Status :=
  match c.current with
  | none => .noTransaction
  | some r => (s.tx r).status

/-- Let go of the transaction that is held. -/
def suspend (c : Context) (s : System) : Option TxRef × Context × System :=
  match c.current with
  | none => (none, c, s)
  | some r => (some r, { c with current := none }, s.modifyTx r (·.release c.task))

/-- Hold a transaction that was let go. -/
def resume (c : Context) (r : TxRef) (s : System) : Except TxError (Context × System) :=
  match c.held? s with
  | some t => .error (.illegalState (.alreadyHolds c.task t.id))
  | none =>
    let t := s.tx r
    if t.status.isTerminal then .error (.invalidTransaction (.ended t.id t.status))
    else
      match t.claim c.task with
      | .error owner => .error (.invalidTransaction (.ownedBy t.id owner))
      | .ok t => .ok ({ c with current := some r }, s.modifyTx r fun _ => t)

/-- The system without a context. -/
def drop (c : Context) (s : System) : System := (c.suspend s).2.2

end Context

end TwoPhaseCommit
