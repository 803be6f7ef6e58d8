/-!
# Statuses, votes and decisions

A transaction is `active` until it is completed or marked for rollback:

* `active` to `markedRollback`, by request, by timeout or by a failing callback;
* `active` to `preparing` (two or more participants, or a last agent) or `committing` (one phase);
* `preparing` to `markedRollback` while votes come in, else to `prepared`;
* `prepared` to `committing` to `committed`;
* any of these to `rollingBack` to `rolledBack`.
-/

namespace TwoPhaseCommit

/-- Where a transaction is in its life. -/
inductive Status
  /-- The transaction is executing and resources may enlist. -/
  | active
  /-- The transaction will be rolled back whatever its caller does next. -/
  | markedRollback
  /-- Votes are being collected. -/
  | preparing
  /-- Every participant voted to commit. -/
  | prepared
  /-- The commit decision is being delivered. -/
  | committing
  | committed
  /-- The rollback is being delivered. -/
  | rollingBack
  | rolledBack
  /-- The caller has no transaction. -/
  | noTransaction
deriving DecidableEq, Inhabited

namespace Status

/-- Whether no further change of status is possible. -/
def isTerminal : Status → Bool
  | committed | rolledBack | noTransaction => true
  | _ => false

/-- Whether the votes are not yet in, so that a rollback may still be requested. -/
def isPreCommit : Status → Bool
  | active | markedRollback | preparing => true
  | _ => false

def name : Status → String
  | active => "Active"
  | markedRollback => "MarkedRollback"
  | preparing => "Preparing"
  | prepared => "Prepared"
  | committing => "Committing"
  | committed => "Committed"
  | rollingBack => "RollingBack"
  | rolledBack => "RolledBack"
  | noTransaction => "NoTransaction"

/-- Every status, in the order of their codes. -/
def all : List Status :=
  [active, markedRollback, preparing, prepared, committing, committed, rollingBack, rolledBack,
    noTransaction]

/-- The number under which a status is stored. -/
def code (s : Status) : Nat := all.idxOf s

def ofName? (n : String) : Option Status := all.find? (·.name == n)

instance : ToString Status := ⟨name⟩

end Status

/-- What the coordinator knows of one participant. -/
inductive ResourceStatus
  /-- No call was made yet. -/
  | enlisted
  /-- Voted to commit and waits for the decision. -/
  | prepared
  /-- Committed, or voted read-only and needs no second phase. -/
  | committed
  | rolledBack
  /-- A call failed, so that the outcome at the resource is unknown. -/
  | failed
deriving DecidableEq, Inhabited

def ResourceStatus.name : ResourceStatus → String
  | enlisted => "Enlisted"
  | prepared => "Prepared"
  | committed => "Committed"
  | rolledBack => "RolledBack"
  | failed => "Failed"

/-- A participant's answer in phase one. -/
inductive Vote
  /-- Ready to commit: the work is held until the outcome is told. -/
  | commit
  /-- The participant cannot commit and has discarded its work. -/
  | rollback
  /-- Nothing was changed and no second phase is needed. -/
  | readOnly
deriving DecidableEq, Inhabited

/-- The outcome that the log records. -/
inductive Decision
  | committed
  | rolledBack
deriving DecidableEq, Inhabited

namespace Decision

/-- The terminal status that agrees with a decision. -/
def status : Decision → Status
  | committed => .committed
  | rolledBack => .rolledBack

def name (d : Decision) : String := d.status.name

def code : Decision → Nat
  | committed => 0
  | rolledBack => 1

def ofName? (n : String) : Option Decision := [committed, rolledBack].find? (·.name == n)

instance : ToString Decision := ⟨name⟩

end Decision

/-- How a resource ends its association with a transaction; it remains a participant. -/
inductive DelistFlag
  /-- Its work is done and waits for the outcome. -/
  | success
  /-- Its work is abandoned, so that the transaction must roll back. -/
  | fail
deriving DecidableEq, Inhabited

end TwoPhaseCommit
