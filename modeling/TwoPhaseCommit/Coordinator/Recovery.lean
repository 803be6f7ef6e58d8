import TwoPhaseCommit.Coordinator.Dialogue

/-!
# Recovery

After a crash the log tells which participants have yet to hear an outcome. Recovery tells them
again and keeps in the log what is still unconfirmed. Then it asks every adapter for transactions
that wait for their outcome: those whose commit the log records are committed, all others were never
decided and are rolled back.
-/

namespace TwoPhaseCommit

/-- What a pass of recovery did. -/
structure RecoveryStats where
  recordsScanned : Nat := 0
  transactions : Nat := 0
  /-- Outcomes delivered that the log records. -/
  redriven : Nat := 0
  /-- Transactions whose every participant has confirmed. -/
  resolved : Nat := 0
  /-- Transactions of which a participant has not. -/
  inDoubt : Nat := 0
  unknownResources : Nat := 0
  purged : Nat := 0
  /-- Transactions that adapters reported and the log had not settled. -/
  reportedInDoubt : Nat := 0
  presumedAborted : Nat := 0
  reportedUnresolved : Nat := 0
deriving DecidableEq, Inhabited

/-- The adapters known to recovery, one for a name, in the order of their names. -/
abbrev Registry := List AdapterKey

namespace Registry

/-- Add an adapter, in the place of one of the same name. -/
def insert (a : AdapterKey) : Registry → Registry
  | [] => [a]
  | b :: bs =>
    if b.id = a.id then a :: bs
    else if ResourceId.le a.id b.id then a :: b :: bs
    else b :: insert a bs

/-- The registry of a list of adapters, of which later ones count. -/
def ofList (adapters : List AdapterKey) : Registry := adapters.foldl (fun g a => insert a g) []

def get? (g : Registry) (id : ResourceId) : Option AdapterKey := g.find? (·.id == id)

end Registry

namespace Recovery

/-- Deliver an outcome. A resource that reached it on its own has it. -/
def deliver (a : AdapterKey) (tx : TxId) : Decision → Proc (Except ResourceError Unit)
  | .committed => do
    match ← Proc.commitAt a tx false with
    | .error .heuristicCommit => return .ok ()
    | answer => return answer
  | .rolledBack => do
    match ← Proc.rollbackAt a tx with
    | .error .heuristicRollback => return .ok ()
    | answer => return answer

/-- Deliver the outcome of a record to pending participants, and list those still pending. -/
def redrive (g : Registry) (r : LogRecord) :
    (pending : List ResourceId) → RecoveryStats → Proc (List ResourceId × RecoveryStats)
  | [], st => return ([], st)
  | id :: ids, st =>
    match g.get? id with
    | none => do
      let (rest, st) ← redrive g r ids { st with unknownResources := st.unknownResources + 1 }
      return (id :: rest, st)
    | some a => do
      match ← deliver a r.tx r.decision with
      | .ok () => redrive g r ids { st with redriven := st.redriven + 1 }
      | .error _ =>
        let (rest, st) ← redrive g r ids st
        return (id :: rest, st)

/-- Deliver the outcomes of records with pending participants, and list the records to keep. -/
def redriveAll (g : Registry) :
    List LogRecord → RecoveryStats → Proc (List LogRecord × RecoveryStats)
  | [], st => return ([], st)
  | r :: rs, st => do
    let (remaining, st) ← redrive g r r.pending st
    if remaining.isEmpty then
      redriveAll g rs { st with resolved := st.resolved + 1 }
    else
      let now ← Proc.view (·.timestamp)
      let kept := if remaining = r.pending then r else r.withPending remaining now
      let (rest, st) ← redriveAll g rs { st with inDoubt := st.inDoubt + 1 }
      return (kept :: rest, st)

def unresolved (folded : List LogRecord) : List LogRecord := folded.filter (!·.isResolved)

/-- Whether the log had an adapter's participation in a transaction pending. -/
def isHandled (folded : List LogRecord) (tx : TxId) (id : ResourceId) : Bool :=
  folded.any fun r => r.tx == tx && r.pending.contains id

/-- The outcome of a transaction that an adapter reports. -/
def outcome (folded : List LogRecord) (tx : TxId) : Decision :=
  match folded.find? (·.tx == tx) with
  | some r => r.decision
  | none => .rolledBack

/-- Settle transactions that an adapter reports. -/
def settle (folded : List LogRecord) (a : AdapterKey) :
    List TxId → RecoveryStats → Proc RecoveryStats
  | [], st => return st
  | tx :: txs, st => do
    if isHandled folded tx a.id then settle folded a txs st
    else
      let st := { st with reportedInDoubt := st.reportedInDoubt + 1 }
      match outcome folded tx, ← deliver a tx (outcome folded tx) with
      | .committed, .ok () => settle folded a txs { st with redriven := st.redriven + 1 }
      | .rolledBack, .ok () =>
        settle folded a txs { st with presumedAborted := st.presumedAborted + 1 }
      | _, .error _ =>
        settle folded a txs { st with reportedUnresolved := st.reportedUnresolved + 1 }

/-- Ask adapters what waits for its outcome, and settle it. One that cannot tell is passed over. -/
def settleAll (folded : List LogRecord) : Registry → RecoveryStats → Proc RecoveryStats
  | [], st => return st
  | a :: g, st => do
    match ← Proc.inDoubt a with
    | .error _ => settleAll folded g st
    | .ok reported => do
      let st ← settle folded a reported st
      settleAll folded g st

/-- One pass of recovery over a log. -/
def recover (log : LogRef) (g : Registry) : Proc (Except StorageError RecoveryStats) := do
  match ← Proc.readAll log with
  | .error e => return .error e
  | .ok records =>
    let folded := LogRecord.fold records
    let st : RecoveryStats := { recordsScanned := records.length, transactions := folded.length }
    let (kept, st) ← redriveAll g (unresolved folded) st
    let st := { st with purged := records.length - kept.length }
    if kept = records then
      return .ok (← settleAll folded g st)
    match ← Proc.replace log kept with
    | .error e => return .error e
    | .ok () => return .ok (← settleAll folded g st)

end Recovery

end TwoPhaseCommit
