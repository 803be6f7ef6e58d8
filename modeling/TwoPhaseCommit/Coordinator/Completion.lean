import TwoPhaseCommit.Coordinator.Dialogue

/-!
# Completion

A transaction is completed once, by a commit or by a rollback. A commit with one participant is told
to it in one phase. Otherwise the participants vote; if all agree, the last agent commits, the
decision is written to the log, and only then are the others told to commit. Any other course ends
with a rollback of those that may hold work. A mark for rollback takes effect up to the last vote.

The transaction is locked for single steps only. Before each of them other tasks have their turn.
-/

namespace TwoPhaseCommit

/-- A completion in progress: who carries it out, what it is about, and where it is recorded. -/
structure Completion where
  manager : ManagerRef
  tx : TxRef
  id : TxId
  log : LogRef
deriving DecidableEq

namespace Completion

def of (m : ManagerRef) (r : TxRef) (s : System) : Completion :=
  ⟨m, r, (s.tx r).id, (s.manager m).log⟩

/-! ### Steps -/

def current (c : Completion) : Proc Transaction := do
  Proc.turn
  Proc.view (·.tx c.tx)

def update (c : Completion) (f : Transaction → Transaction) : Proc Unit := do
  Proc.turn
  Proc.change (·.modifyTx c.tx f)

/-- Look at the transaction and change it under one lock. -/
def locked {α : Type} (c : Completion) (f : Transaction → α × Transaction) : Proc α := do
  Proc.turn
  Proc.step fun s => ((f (s.tx c.tx)).1, s.modifyTx c.tx fun t => (f t).2)

def setStatus (c : Completion) (s : Status) : Proc Unit := c.update fun t => { t with status := s }

def setResourceStatus (c : Completion) (p : Participant) (s : ResourceStatus) : Proc Unit :=
  c.update (·.setResourceStatus p.index s)

/-- Count a completion in which a participant diverged. -/
def countHeuristic (c : Completion) : Proc Unit := do
  Proc.turn
  Proc.change (·.modifyStats c.manager fun x => { x with heuristic := x.heuristic + 1 })

/-- Write the outcome to the log; a failure is not reported. -/
def recordOutcome (c : Completion) (d : Decision) (pending : List ResourceId) : Proc Unit := do
  discard (Proc.append c.log ⟨c.id, d, pending, ← Proc.view (·.timestamp)⟩)

/-- Strike a completed transaction from the list of its manager, if it is there, and count it. -/
def unregister (c : Completion) (outcome : Status) (s : System) : System :=
  s.modifyManager c.manager fun x =>
    if c.tx ∈ x.registered then
      { x with
        registered := x.registered.erase c.tx, active := x.active - 1
        stats := x.stats.recordEnd outcome }
    else x

/-- Tell callbacks the outcome, whatever they answer. -/
def notify (outcome : Status) : List Synchronization → Proc Unit
  | [] => pure ()
  | x :: xs => do
    discard (Proc.afterCompletion x outcome)
    notify outcome xs

def finish (c : Completion) (outcome : Status) : Proc Unit := do
  let order ← c.locked fun t => (t.afterOrder, t.finish outcome)
  Proc.turn
  Proc.change (c.unregister outcome)
  notify outcome order

/-! ### Telling the outcome -/

/-- What keeps an answer from confirming an outcome. It confirms one by success, or by the error
`own` of a participant that has done it on its own. -/
def failure? (own : ResourceError) : Except ResourceError Unit → Option ResourceError
  | .ok () => none
  | .error e => if e = own then none else some e

/-- Tell participants an outcome one after the other, and list those that did not confirm it. The
others have then reached the status `reached`. -/
def tellEach (c : Completion) (tell : Participant → Proc (Except ResourceError Unit))
    (own : ResourceError) (reached : ResourceStatus) :
    List Participant → Proc (List HeuristicFailure)
  | [] => pure []
  | p :: ps => do
    match failure? own (← tell p) with
    | none =>
      c.setResourceStatus p reached
      c.tellEach tell own reached ps
    | some e =>
      c.setResourceStatus p .failed
      return ⟨p.id, e⟩ :: (← c.tellEach tell own reached ps)

/-- Tell participants to roll back, and list those that did not confirm it. -/
def rollbackEach (c : Completion) (targets : List Participant) : Proc (List HeuristicFailure) :=
  c.tellEach (fun p => Proc.rollbackAt p.adapter c.id) .heuristicRollback .rolledBack targets

/-- Tell participants to commit, and list those that did not confirm it. -/
def commitEach (c : Completion) (targets : List Participant) : Proc (List HeuristicFailure) :=
  c.tellEach (fun p => Proc.commitAt p.adapter c.id false) .heuristicCommit .committed targets

/-! ### Rolling back -/

/-- Tell participants to roll back and end the completion. -/
def rollBackAt (c : Completion) (targets : List Participant) : Proc (List HeuristicFailure) := do
  let failures ← c.rollbackEach targets
  c.recordOutcome .rolledBack (failures.map (·.resource))
  c.finish .rolledBack
  return failures

def rollBack (c : Completion) (targets : List Participant) : Proc (List HeuristicFailure) := do
  c.setStatus .rollingBack
  c.rollBackAt targets

def rollBackAll (c : Completion) : Proc Unit := do
  let targets ← c.locked Transaction.enterRollback
  discard (c.rollBackAt targets)

def rollBackMarked (c : Completion) : Proc TxError := do
  let reason := (← c.current).reason
  c.rollBackAll
  return .rollback c.id reason none

/-- Give up a commit. -/
def abort (c : Completion) (targets : List Participant) (reason : RollbackReason)
    (cause : Option ResourceError) : Proc TxError := do
  discard (c.rollBack targets)
  return .rollback c.id reason cause

/-! ### Committing -/

/-- Ask the callbacks to get ready. The first one that fails marks the transaction for rollback, and
none is asked after it. -/
def runBefore (c : Completion) : List Synchronization → Proc Unit
  | [] => pure ()
  | x :: xs => do
    match ← Proc.beforeCompletion x with
    | .ok () => c.runBefore xs
    | .error e =>
      c.update fun t => ((t.markRollbackOnly (.beforeCompletionFailed e)).toOption).getD t

/-- Commit at the only participant, without a vote. -/
def commitOnePhase (c : Completion) (p : Participant) : Proc (Except TxError Unit) := do
  match ← Proc.commitAt p.adapter c.id true with
  | .ok () | .error .heuristicCommit =>
    c.setResourceStatus p .committed
    c.recordOutcome .committed []
    c.finish .committed
    return .ok ()
  | .error .heuristicMixed =>
    c.setResourceStatus p .failed
    c.recordOutcome .committed []
    c.countHeuristic
    c.finish .committed
    return .error (.heuristicMixed c.id [⟨p.id, .heuristicMixed⟩])
  | .error e =>
    c.setResourceStatus p .failed
    c.recordOutcome .rolledBack []
    c.finish .rolledBack
    return .error (.rollback c.id (.onePhaseFailed p.id) (some e))

/-- Collect the votes of those who have not voted yet. The result lists those who voted to commit,
in order; or the vote has failed and the commit was given up. -/
def collectVotes (c : Completion) (lastAgent : Option Participant) :
    (prepared unvoted : List Participant) → Proc (Except TxError (List Participant))
  | prepared, [] => return .ok prepared
  | prepared, p :: ps => do
    match (← c.current).markedReason with
    | some reason => Except.error <$> c.abort (prepared ++ p :: ps ++ lastAgent.toList) reason none
    | none =>
      match ← Proc.prepare p.adapter c.id with
      | .ok .commit =>
        c.setResourceStatus p .prepared
        c.collectVotes lastAgent (prepared ++ [p]) ps
      | .ok .readOnly =>
        c.setResourceStatus p .committed
        c.collectVotes lastAgent prepared ps
      | .ok .rollback =>
        c.setResourceStatus p .rolledBack
        Except.error <$> c.abort (prepared ++ ps ++ lastAgent.toList) (.votedRollback p.id) none
      | .error e =>
        c.setResourceStatus p .failed
        Except.error <$>
          c.abort (prepared ++ p :: ps ++ lastAgent.toList) (.prepareFailed p.id) (some e)

/-- Commit at the last agent, whose answer decides. -/
def commitLastAgent (c : Completion) (prepared : List Participant) :
    Option Participant → Proc (Except TxError Unit)
  | none => return .ok ()
  | some p => do
    match ← Proc.commitAt p.adapter c.id true with
    | .ok () | .error .heuristicCommit =>
      c.setResourceStatus p .committed
      return .ok ()
    | .error .heuristicMixed =>
      c.setResourceStatus p .failed
      let failures ← c.rollBack prepared
      c.countHeuristic
      return .error (.heuristicMixed c.id (⟨p.id, .heuristicMixed⟩ :: failures))
    | .error e =>
      c.setResourceStatus p .failed
      Except.error <$> c.abort prepared (.lastAgentFailed p.id) (some e)

/-- Give up a commit whose decision could not be written. A last agent has committed by then. -/
def abortUnwritten (c : Completion) (prepared : List Participant) (lastAgent : Option Participant)
    (e : StorageError) : Proc TxError := do
  discard (c.rollBack prepared)
  match lastAgent with
  | some p =>
    c.countHeuristic
    return .heuristicMixed c.id [⟨p.id, .heuristicCommit⟩]
  | none => return .rollback c.id (.decisionNotWritten e) none

/-- What the caller is told of a commit in which participants diverged. -/
def divergence (c : Completion) (lastAgent : Option Participant) (prepared : List Participant)
    (failures : List HeuristicFailure) : TxError :=
  let anyCommitted := lastAgent.isSome || failures.length < prepared.length
  if anyCommitted || failures.any (·.error == .heuristicMixed) then .heuristicMixed c.id failures
  else .heuristicRollback c.id failures

/-- Write the decision to commit and carry it out. -/
def carryOut (c : Completion) (lastAgent : Option Participant) (prepared : List Participant) :
    Proc (Except TxError Unit) := do
  let decision : LogRecord := ⟨c.id, .committed, prepared.map (·.id), ← Proc.view (·.timestamp)⟩
  match ← Proc.append c.log decision with
  | .error e => Except.error <$> c.abortUnwritten prepared lastAgent e
  | .ok () =>
    if prepared.isEmpty then
      c.finish .committed
      return .ok ()
    c.setStatus .committing
    let failures ← c.commitEach prepared
    c.recordOutcome .committed (failures.map (·.resource))
    c.finish .committed
    if failures.isEmpty then return .ok ()
    c.countHeuristic
    return .error (c.divergence lastAgent prepared failures)

def commitTwoPhase (c : Completion) (participants : List Participant) :
    Proc (Except TxError Unit) := do
  let lastAgent := participants.find? (!·.twoPhase)
  match ← c.collectVotes lastAgent [] (participants.filter (·.twoPhase)) with
  | .error e => return .error e
  | .ok prepared =>
    match ← c.locked Transaction.enterPrepared with
    | some reason => Except.error <$> c.abort (prepared ++ lastAgent.toList) reason none
    | none =>
      match ← c.commitLastAgent prepared lastAgent with
      | .error e => return .error e
      | .ok () => c.carryOut lastAgent prepared

def commitEmpty (c : Completion) : Proc (Except TxError Unit) := do
  c.recordOutcome .committed []
  c.finish .committed
  return .ok ()

/-- Commit by the way that the participants call for. -/
def commitAll (c : Completion) : List Participant → Proc (Except TxError Unit)
  | [] => c.commitEmpty
  | [p] => if p.twoPhase then c.commitOnePhase p else c.commitTwoPhase [p]
  | ps => c.commitTwoPhase ps

def commitActive (c : Completion) (callbacks : List Synchronization) :
    Proc (Except TxError Unit) := do
  c.runBefore callbacks
  match ← c.locked Transaction.enterCommit with
  | none => Except.error <$> c.rollBackMarked
  | some participants => c.commitAll participants

def commit (c : Completion) : Proc (Except TxError Unit) := do
  match ← c.locked Transaction.admitCommit with
  | .refused why => return .error (.illegalState why)
  | .toRollBack => Except.error <$> c.rollBackMarked
  | .toCommit callbacks => c.commitActive callbacks

def rollback (c : Completion) : Proc (Except TxError Unit) := do
  match ← c.locked Transaction.admitRollback with
  | some why => return .error (.illegalState why)
  | none =>
    c.rollBackAll
    return .ok ()

end Completion

/-! ### Entry points -/

namespace Coordinator

/-- Commit a transaction through a manager. A timeout that is due takes effect first. -/
def commit (m : ManagerRef) (r : TxRef) : Proc (Except TxError Unit) := do
  Proc.turn
  Proc.change fun s => (s.expireIfDue m r).2
  let c ← Proc.view (Completion.of m r)
  c.commit

def rollback (m : ManagerRef) (r : TxRef) : Proc (Except TxError Unit) := do
  let c ← Proc.view (Completion.of m r)
  c.rollback

end Coordinator

end TwoPhaseCommit
