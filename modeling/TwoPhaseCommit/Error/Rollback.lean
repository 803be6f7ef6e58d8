import TwoPhaseCommit.Duration
import TwoPhaseCommit.Error.Resource
import TwoPhaseCommit.Error.Storage

/-!
# Reasons to roll back
-/

namespace TwoPhaseCommit

/-- Why a transaction was, or is to be, rolled back. -/
inductive RollbackReason
  | markedRollbackOnly
  | forced
  | timedOut (timeout : Duration)
  | delistedWithFailure (resource : ResourceId)
  | beforeCompletionFailed (error : ResourceError)
  | votedRollback (resource : ResourceId)
  | prepareFailed (resource : ResourceId)
  | onePhaseFailed (resource : ResourceId)
  | lastAgentFailed (resource : ResourceId)
  | decisionNotWritten (error : StorageError)
  | described (text : String)
deriving DecidableEq

def RollbackReason.message : RollbackReason → String
  | markedRollbackOnly => "transaction marked rollback-only"
  | forced => "rollback forced by administrator"
  | timedOut d => s!"transaction timed out after {d.text}"
  | delistedWithFailure r => s!"resource {r.name} delisted with failure"
  | beforeCompletionFailed e => "before_completion failed: " ++ e.message
  | votedRollback r => s!"resource {r.name} voted rollback"
  | prepareFailed r => s!"prepare of {r.name} failed"
  | onePhaseFailed r => s!"one-phase commit of {r.name} failed"
  | lastAgentFailed r => s!"last agent {r.name} failed to commit"
  | decisionNotWritten e => "failed to write commit decision: " ++ e.message
  | described t => t

end TwoPhaseCommit
