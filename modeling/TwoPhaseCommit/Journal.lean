import TwoPhaseCommit.Record

/-!
# Call journal

An ordered record of the calls that resources, callbacks and a log have seen. The number of an entry
is its place, so that "before" is a comparison of numbers.
-/

namespace TwoPhaseCommit

inductive Call
  | prepare
  /-- In one phase when the coordinator skipped the vote. -/
  | commit (onePhase : Bool)
  | rollback
  | append (decision : Decision) (pending : List ResourceId)
  | beforeCompletion
  | afterCompletion (status : Status)
deriving DecidableEq

def Call.kind : Call → String
  | prepare => "prepare"
  | commit _ => "commit"
  | rollback => "rollback"
  | append .. => "append"
  | beforeCompletion => "before"
  | afterCompletion _ => "after"

structure JournalEntry where
  source : String
  /-- The transaction that the call was for, when the callee is told. -/
  tx : Option TxId
  call : Call
deriving DecidableEq

/-- The calls so far, oldest first. -/
structure Journal where
  entries : List JournalEntry := []

namespace Journal

/-- Add a call; the result is its number. -/
def record (j : Journal) (source : String) (tx : Option TxId) (call : Call) : Nat × Journal :=
  (j.entries.length, ⟨j.entries ++ [⟨source, tx, call⟩]⟩)

def callsFor (j : Journal) (source : String) : List Call :=
  (j.entries.filter (·.source == source)).map (·.call)

/-- Whether an entry is a call to `source` that satisfies `p`. -/
def matching (source : String) (p : Call → Bool) (e : JournalEntry) : Bool :=
  e.source == source && p e.call

/-- The number of the first call to `source` that satisfies `p`. -/
def first? (j : Journal) (source : String) (p : Call → Bool) : Option Nat :=
  j.entries.findIdx? (matching source p)

/-- The number of the last call to `source` that satisfies `p`. -/
def last? (j : Journal) (source : String) (p : Call → Bool) : Option Nat :=
  (j.entries.reverse.findIdx? (matching source p)).map (j.entries.length - 1 - ·)

def count (j : Journal) (source : String) (p : Call → Bool) : Nat :=
  j.entries.countP (matching source p)

end Journal

end TwoPhaseCommit
