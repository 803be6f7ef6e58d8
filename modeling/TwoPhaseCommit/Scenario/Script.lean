import TwoPhaseCommit.Coordinator.Context
import TwoPhaseCommit.Journal
import TwoPhaseCommit.Service

/-!
# Scripts

A script drives a coordinator through named transactions, adapters, callbacks and contexts. Its
steps are actions, each of which has a reply.
-/

namespace TwoPhaseCommit.Scenario

/-- A record in a script; its transaction is given by name or by id. -/
structure Draft where
  tx : String
  decision : Decision
  pending : List ResourceId
  timestamp : UInt64

/-! ### Actions -/

inductive ContextAction
  | begin (name : String)
  | commit
  | rollback
  | mark
  | status
  | transaction
  | suspend
  | resume (tx : String)
  | setTimeout (timeout : Option Duration)
  | managerCount
  | drop

inductive AdapterAction
  | prepare (tx : String)
  | commit (tx : String) (onePhase : Bool)
  | rollback (tx : String)
  | inDoubt
  | isSame (other : String)
  | setCommitFailure (error : Option ResourceError)
  | setRollbackFailure (error : Option ResourceError)
  | state (tx : Option String)

inductive ServiceAction
  | «open» (dir : String) (config : Option ServiceConfig) (adapters : List String)
  | ephemeral
  | shutdown
  | drop

inductive FileAction
  | write (bytes : Bytes)
  | append (bytes : Bytes)
  | cut (count : Nat)
  | text
  | length
  | makeDirectory

inductive TxAction
  | enlist (adapter : String)
  | delist (adapter : String) (flag : DelistFlag)
  | mark
  | register (callback : String) (interposed : Bool)
  | commit
  | rollback
  | info
  | resourceStatus (id : ResourceId)
  | text
  | isSame (other : String)

inductive ManagerAction
  | begin (name : String) (timeout : Option Duration)
  | beginMany (name : String) (count : Nat)
  | force (tx : String)
  | get (tx : String)
  | reap
  | runReaper
  | stats
  | count
  | active
  | config

inductive LogAction
  | readAll
  | append (record : Draft)
  | replace (records : List Draft)
  | info
  | recover (adapters : List String)

inductive Action
  | tx (name : String) (act : TxAction)
  | manager (act : ManagerAction)
  /-- A new manager on the log, with other settings from now on if some are given. -/
  | restart (config : Option CoordinatorConfig)
  | log (act : LogAction)
  /-- Make the appends of the script's own recording log fail, or let them pass. -/
  | failAppends (on : Bool)
  /-- The outcomes that a callback was told. -/
  | outcomes (callback : String)
  | newContext (name : String)
  | context (name : String) (act : ContextAction)
  | adapter (name : String) (act : AdapterAction)
  | service (act : ServiceAction)
  | file (name : String) (act : FileAction)

/-! ### Replies -/

structure TxInfo where
  status : Status
  timedOut : Bool
  reason : Option RollbackReason
  owner : Option TaskId
  timeout : Option Duration
  remaining : Option Duration
  resources : List (ResourceId × Option ResourceStatus × Option DelistFlag)

/-- What an adapter has done for one transaction. -/
structure AdapterTx where
  committed : Bool
  rolledBack : Bool
  inDoubt : Bool

inductive Reply
  | done
  /-- A name that stands for nothing. -/
  | unbound (name : String)
  | failed (error : TxError)
  | storageFailed (error : StorageError)
  | resourceFailed (error : ResourceError)
  | begun (status : Status) (timeout : Option Duration)
  | begunMany (count : Nat) (error : Option TxError)
  | flag (yes : Bool)
  | count (n : Nat)
  | length (n : Option Nat)
  | text (s : Option String)
  | info (i : TxInfo)
  | resourceStatus (status : Option ResourceStatus) (flag : Option DelistFlag)
  | found (tx : Option (TxId × Status × Option Bool))
  | reaperRan (expired : Nat)
  | stats (s : Stats)
  | active (txs : List (TxId × Status × List ResourceId))
  | managerConfig (c : CoordinatorConfig)
  /-- Records, each with whether the script has given its time. -/
  | records (rs : List (LogRecord × Bool))
  | logInfo (durable : Bool) (length : Option Nat)
  | recovered (registered : List ResourceId) (stats : RecoveryStats)
  | restarted (reopened : Option FileLog)
  | statuses (ss : List Status)
  | status (s : Status)
  | held (tx : Option TxId)
  | suspended (tx : Option TxId)
  | vote (v : Vote)
  | ids (txs : List TxId)
  | sameness (same twoPhase : Bool)
  | adapterState (commits rollbacks : Nat) (tx : Option AdapterTx)
  | service (s : Service) (durable : Bool)
  | reaping (yes : Bool)

namespace Reply

/-- The reply for a call without a value. -/
def ofUnit : Except TxError Unit → Reply
  | .ok () => done
  | .error e => failed e

end Reply

/-! ### Events -/

/-- What happened during a step. -/
inductive Event
  | call (entry : JournalEntry)
  /-- A step was taken from within a call; `place` tells where, `word` which. -/
  | hook (place word : String) (reply : Reply)

end TwoPhaseCommit.Scenario
