import TwoPhaseCommit.Coordinator.Config
import TwoPhaseCommit.Coordinator.Transaction

/-!
# Systems

A system holds every transaction that was ever begun and every manager that ever was. A transaction
is known to its callers by its number, a `TxRef`; a manager keeps the numbers of those that it has
begun and not yet completed. Managers come and go, as after a restart, while transactions stay
usable.
-/

namespace TwoPhaseCommit

/-- The number of a transaction in order of begin. -/
abbrev TxRef := Nat

abbrev ManagerRef := Nat

abbrev LogRef := Nat

structure Stats where
  begun : Nat := 0
  committed : Nat := 0
  rolledBack : Nat := 0
  timedOut : Nat := 0
  /-- Completions in which a participant diverged from the decision. -/
  heuristic : Nat := 0
  active : Nat := 0
deriving DecidableEq, Inhabited

def Stats.recordEnd (s : Stats) (outcome : Status) : Stats :=
  match outcome with
  | .committed => { s with committed := s.committed + 1, active := s.active - 1 }
  | _ => { s with rolledBack := s.rolledBack + 1, active := s.active - 1 }

structure Manager where
  config : CoordinatorConfig
  log : LogRef
  /-- The transactions in flight, in order of begin. -/
  registered : List TxRef := []
  active : Nat := 0
  stats : Stats := {}

instance : Inhabited Manager := ⟨{ config := {}, log := 0 }⟩

/-- Every transaction and every manager. -/
structure System where
  /-- The time, in nanoseconds since the Unix epoch. -/
  clock : Nat
  seed : Nat := 0
  nextTask : Nat := 1
  transactions : Array Transaction := #[]
  managers : Array Manager := #[]

namespace System

/-! ### Access -/

def tx (s : System) (r : TxRef) : Transaction := s.transactions.getD r default

def manager (s : System) (m : ManagerRef) : Manager := s.managers.getD m default

def modifyTx (s : System) (r : TxRef) (f : Transaction → Transaction) : System :=
  { s with transactions := s.transactions.modify r f }

def modifyManager (s : System) (m : ManagerRef) (f : Manager → Manager) : System :=
  { s with managers := s.managers.modify m f }

def modifyStats (s : System) (m : ManagerRef) (f : Stats → Stats) : System :=
  s.modifyManager m fun x => { x with stats := f x.stats }

def find? (s : System) (id : TxId) : Option TxRef := s.transactions.findIdx? (·.id == id)

/-- The time as log records state it. -/
def timestamp (s : System) : UInt64 := (s.clock / 1000).toUInt64

@[simp] theorem tx_modifyManager (s : System) (m : ManagerRef) (f : Manager → Manager) (r : TxRef) :
    (s.modifyManager m f).tx r = s.tx r := rfl

@[simp] theorem manager_modifyTx (s : System) (r : TxRef) (f : Transaction → Transaction)
    (m : ManagerRef) : (s.modifyTx r f).manager m = s.manager m := rfl

/-- A change touches one transaction only, and none if there is none of that number. -/
theorem tx_modifyTx (s : System) (r q : TxRef) (f : Transaction → Transaction) :
    (s.modifyTx r f).tx q = if q = r ∧ q < s.transactions.size then f (s.tx q) else s.tx q := by
  simp only [tx, modifyTx, Array.getD_eq_getD_getElem?, Array.getElem?_modify]
  by_cases h : r = q
  · subst h
    by_cases hr : r < s.transactions.size
    · simp [hr]
    · simp [hr]
  · have hq : ¬q = r := fun e => h e.symm
    simp [h, hq]

/-! ### Operations that complete nothing -/

def addManager (s : System) (config : CoordinatorConfig) (log : LogRef) : ManagerRef × System :=
  (s.managers.size, { s with managers := s.managers.push { config, log } })

/-- Begin a transaction. Without a timeout the manager's default applies, and a timeout of zero is
none. -/
def begin (s : System) (m : ManagerRef) (timeout : Option Duration) :
    Except TxError (TxRef × System) :=
  let config := (s.manager m).config
  if (s.manager m).active < config.maxActive then
    let timeout := match timeout with
      | some d => if d.isZero then none else some d
      | none => config.timeout?
    let r := s.transactions.size
    let transactions := s.transactions.push { id := .mint s.seed r, timeout, start := s.clock }
    let s := { s with transactions }
    .ok (r, s.modifyManager m fun x =>
      { x with
        registered := x.registered ++ [r], active := x.active + 1
        stats := { x.stats with begun := x.stats.begun + 1, active := x.stats.active + 1 } })
  else .error (.resourceExhausted config.maxActive)

/-- The transaction in flight at a manager that has a given id. -/
def inFlight? (s : System) (m : ManagerRef) (id : TxId) : Option TxRef :=
  (s.manager m).registered.find? fun r => (s.tx r).id == id

/-- Mark a transaction in flight for rollback. -/
def force (s : System) (m : ManagerRef) (id : TxId) : Except TxError System :=
  match s.inFlight? m id with
  | none => .error (.illegalState (.unknownTransaction id))
  | some r => do
    let t ← (s.tx r).markRollbackOnly .forced
    return s.modifyTx r fun _ => t

/-- Mark a transaction for rollback if its time is over, and count that. The answer is whether it
was marked. -/
def expireIfDue (s : System) (m : ManagerRef) (r : TxRef) : Bool × System :=
  if (s.tx r).isDue s.clock then
    let s := s.modifyTx r Transaction.expire
    (true, s.modifyStats m fun x => { x with timedOut := x.timedOut + 1 })
  else (false, s)

/-- Mark every transaction in flight whose time is over; the answer is how many. -/
def reap (s : System) (m : ManagerRef) : Nat × System :=
  (s.manager m).registered.foldl (fun (n, s) r =>
    let (marked, s) := s.expireIfDue m r
    (if marked then n + 1 else n, s)) (0, s)

end System

end TwoPhaseCommit
