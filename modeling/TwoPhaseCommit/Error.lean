import TwoPhaseCommit.Error.Refusal
import TwoPhaseCommit.Error.Rollback
import TwoPhaseCommit.Error.System

/-!
# Errors

Errors are causes, in layers: what a resource reports (`ResourceError`), what the file system and
the log report (`IoError`, `StorageError`), and what the coordinator tells its callers (`TxError`).
The wording of each is given by its `message`.
-/

namespace TwoPhaseCommit

/-- What the coordinator tells its callers when a call does not succeed. -/
inductive TxError
  | rollback (tx : TxId) (reason : RollbackReason) (cause : Option ResourceError)
  /-- Some participants committed and some rolled back, against the decision. -/
  | heuristicMixed (tx : TxId) (failures : List HeuristicFailure)
  /-- Every participant rolled back although the decision was to commit. -/
  | heuristicRollback (tx : TxId) (failures : List HeuristicFailure)
  | system (fault : SystemFault)
  | illegalState (misuse : Misuse)
  | invalidTransaction (cause : InvalidTransaction)
  /-- A second resource without a first phase tried to enlist. -/
  | multipleLastAgents (tx : TxId) (existing rejected : ResourceId)
  | resourceExhausted (limit : Nat)
  | notSupported (cause : Unsupported)
deriving DecidableEq

namespace TxError

def message : TxError → String
  | rollback t r _ => s!"transaction {t} rolled back: " ++ r.message
  | heuristicMixed t fs =>
    s!"transaction {t} completed with mixed heuristic outcome: {fs.length} participant(s) diverged"
  | heuristicRollback t fs =>
    s!"transaction {t} heuristically rolled back: {fs.length} participant(s) failed to commit"
  | system f => "system error: " ++ f.message
  | illegalState m => "illegal state: " ++ m.message
  | invalidTransaction c => "invalid transaction: " ++ c.message
  | multipleLastAgents t e r => s!"transaction {t} already has last agent {e}; cannot enlist {r}"
  | resourceExhausted n => s!"too many active transactions (limit {n})"
  | notSupported c => "not supported: " ++ c.message

def isRollback : TxError → Bool
  | rollback .. => true
  | _ => false

/-- Whether participants diverged from the decision. -/
def isHeuristic : TxError → Bool
  | heuristicMixed .. | heuristicRollback .. => true
  | _ => false

def tx? : TxError → Option TxId
  | rollback t _ _ | heuristicMixed t _ | heuristicRollback t _ | multipleLastAgents t _ _ => some t
  | _ => none

/-- The failure of the log behind the error, if any. -/
def storage? : TxError → Option StorageError
  | system (.storage e) => some e
  | _ => none

/-- The message of the failure that caused this one, if any. -/
def sourceMessage? : TxError → Option String
  | rollback _ _ cause => cause.map (·.message)
  | e => e.storage?.map (·.message)

end TxError

def StorageError.toTxError (e : StorageError) : TxError := .system (.storage e)

end TwoPhaseCommit
