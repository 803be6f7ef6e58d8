import TwoPhaseCommit.Id
import TwoPhaseCommit.Status

/-!
# Log records

A record states the outcome of one transaction and the participants that have not confirmed it. The
log is only ever appended to, so a transaction may have several records, of which the latest counts:
`LogRecord.fold` keeps that one, in order of first appearance.
-/

namespace TwoPhaseCommit

/-- The durable outcome of one transaction. -/
structure LogRecord where
  tx : TxId
  /-- The outcome that every participant must reach. -/
  decision : Decision
  /-- The participants that have not confirmed the outcome yet. -/
  pending : List ResourceId
  /-- When the record was written, in microseconds since the Unix epoch. -/
  timestamp : UInt64
deriving DecidableEq

namespace LogRecord

/-- Whether no participant is pending. -/
def isResolved (r : LogRecord) : Bool := r.pending.isEmpty

/-- The record of a transaction whose participants all confirmed. -/
def resolved (tx : TxId) (decision : Decision) (now : UInt64) : LogRecord := ⟨tx, decision, [], now⟩

/-- The same outcome with other participants pending, written at `now`. -/
def withPending (r : LogRecord) (pending : List ResourceId) (now : UInt64) : LogRecord :=
  { r with pending, timestamp := now }

@[simp] theorem isResolved_resolved (tx : TxId) (d : Decision) (now : UInt64) :
    (resolved tx d now).isResolved = true := rfl

@[simp] theorem tx_withPending (r : LogRecord) (p : List ResourceId) (now : UInt64) :
    (r.withPending p now).tx = r.tx := rfl

@[simp] theorem decision_withPending (r : LogRecord) (p : List ResourceId) (now : UInt64) :
    (r.withPending p now).decision = r.decision := rfl

@[simp] theorem pending_withPending (r : LogRecord) (p : List ResourceId) (now : UInt64) :
    (r.withPending p now).pending = p := rfl

/-- Put `r` in the place of the record of its transaction, or at the end if there is none. -/
def upsert (r : LogRecord) : List LogRecord → List LogRecord
  | [] => [r]
  | q :: qs => if q.tx = r.tx then r :: qs else q :: upsert r qs

/-- The latest record of every transaction, in order of first appearance. -/
def fold (rs : List LogRecord) : List LogRecord := rs.foldl (fun acc r => upsert r acc) []

@[simp] theorem fold_nil : fold [] = [] := rfl

theorem fold_concat (rs : List LogRecord) (r : LogRecord) :
    fold (rs ++ [r]) = upsert r (fold rs) := by
  simp [fold]

end LogRecord

end TwoPhaseCommit
