import TwoPhaseCommit.Id
import TwoPhaseCommit.Status

/-!
# Refusals

Why a call is refused without having done anything: the state of a transaction or of a context does
not allow it, the transaction cannot be resumed, or the request is beyond what is offered.
-/

namespace TwoPhaseCommit

/-- A call that the state of a transaction or of a context does not allow. -/
inductive Misuse
  | alreadyCompleting (tx : TxId)
  | cannotCommit (tx : TxId) (status : Status)
  | cannotRollBack (tx : TxId) (status : Status)
  | cannotEnlist (resource : ResourceId) (tx : TxId) (status : Status)
  | cannotDelist (tx : TxId) (status : Status)
  | cannotMark (tx : TxId) (status : Status)
  | cannotRegister (tx : TxId) (status : Status)
  | unknownTransaction (tx : TxId)
  /-- The named call needs a transaction and the context holds none. -/
  | noneAssociated (call : String)
  /-- The named call was made by a task that does not own the transaction. -/
  | notOwner (call : String) (tx : TxId)
  | alreadyHolds (task : TaskId) (tx : TxId)
  | described (text : String)
deriving DecidableEq

def Misuse.message : Misuse → String
  | alreadyCompleting t => s!"transaction {t} is already completing"
  | cannotCommit t s => s!"cannot commit transaction {t} with status {s}"
  | cannotRollBack t s => s!"cannot roll back transaction {t} with status {s}"
  | cannotEnlist r t s => s!"cannot enlist {r} in transaction {t} with status {s}"
  | cannotDelist t s => s!"cannot delist from transaction {t} with status {s}"
  | cannotMark t s => s!"cannot mark transaction {t} rollback-only with status {s}"
  | cannotRegister t s => s!"cannot register synchronization with transaction {t} in status {s}"
  | unknownTransaction t => s!"no active transaction with id {t}"
  | noneAssociated c => s!"{c} called with no transaction associated"
  | notOwner c t => s!"{c} of transaction {t} from a task that does not own it"
  | alreadyHolds k t => s!"task {k} already holds transaction {t}"
  | described t => t

/-- A transaction that cannot be resumed. -/
inductive InvalidTransaction
  | ended (tx : TxId) (status : Status)
  | ownedBy (tx : TxId) (task : TaskId)
  | described (text : String)
deriving DecidableEq

def InvalidTransaction.message : InvalidTransaction → String
  | ended t s => s!"transaction {t} is {s}"
  | ownedBy t k => s!"transaction {t} is associated with task {k}"
  | described t => t

/-- A request beyond what the coordinator offers. -/
inductive Unsupported
  /-- A task that holds a transaction began another. -/
  | nested (task : TaskId) (holds : TxId)
  | described (text : String)
deriving DecidableEq

/-- The wording of a request that is beyond what is offered. -/
def Unsupported.message : Unsupported → String
  | nested k t => s!"nested transactions are not supported; task {k} already holds {t}"
  | described t => t

end TwoPhaseCommit
