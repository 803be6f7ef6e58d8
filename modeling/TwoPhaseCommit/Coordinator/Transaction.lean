import TwoPhaseCommit.Error

/-!
# Transactions

A transaction holds its participants in the order of their enlistment and the callbacks that want to
know of its completion. The operations of this module touch nothing but the transaction; completing
it is the business of `TwoPhaseCommit.Coordinator.Completion`.
-/

namespace TwoPhaseCommit

/-! ### Adapters and callbacks -/

/-- What names an adapter: its identity as an object, the stable name of its resource, and whether
that resource has a first phase. -/
structure AdapterKey where
  ref : Nat
  id : ResourceId
  /-- A resource without a first phase can only take part as the last agent. -/
  twoPhase : Bool := true
deriving DecidableEq, Inhabited

/-- An adapter as it is handed in for enlistment. -/
structure Adapter extends AdapterKey where
  /-- Whether another adapter stands for the same resource; by default, whether the names agree. -/
  isSame : AdapterKey → Bool := fun other => id == other.id

/-- A callback around the completion of a transaction. -/
structure Synchronization where
  ref : Nat
deriving DecidableEq, Inhabited

/-! ### State -/

/-- A resource that takes part in a transaction. -/
structure Enlisted where
  adapter : Adapter
  status : ResourceStatus := .enlisted
  /-- How its association was ended, if it was. -/
  delisted : Option DelistFlag := none

/-- A participant as the completion of a transaction sees it. -/
structure Participant where
  /-- Its place in the order of enlistment. -/
  index : Nat
  adapter : AdapterKey
deriving DecidableEq

namespace Participant

def id (p : Participant) : ResourceId := p.adapter.id
/-- Whether it has a first phase. -/
def twoPhase (p : Participant) : Bool := p.adapter.twoPhase

end Participant

structure Transaction where
  id : TxId
  timeout : Option Duration
  /-- When it was begun, in nanoseconds. -/
  start : Nat
  status : Status := .active
  resources : List Enlisted := []
  /-- The regular callbacks, in order of registration. -/
  regular : List Synchronization := []
  /-- The callbacks that run closer to the completion than the regular ones. -/
  interposed : List Synchronization := []
  timedOut : Bool := false
  /-- The first reason for which the transaction was marked for rollback. -/
  rollbackReason : Option RollbackReason := none
  /-- The task that the transaction is associated with. -/
  owner : Option TaskId := none
  completing : Bool := false

instance : Inhabited Transaction :=
  ⟨{ id := .nil, timeout := none, start := 0, status := .noTransaction }⟩

namespace Transaction

/-! ### Questions -/

def participants (t : Transaction) : List Participant :=
  t.resources.zipIdx.map fun (e, i) => ⟨i, e.adapter.toAdapterKey⟩

/-- The callbacks in the order in which they run before completion. -/
def beforeOrder (t : Transaction) : List Synchronization := t.regular ++ t.interposed

/-- The callbacks in the order in which they run after completion. -/
def afterOrder (t : Transaction) : List Synchronization := t.interposed ++ t.regular

/-- The reason to roll back: the first one given, or the plain request. -/
def reason (t : Transaction) : RollbackReason := t.rollbackReason.getD .markedRollbackOnly

/-- The reason to roll back, if the transaction is marked. -/
def markedReason (t : Transaction) : Option RollbackReason :=
  if t.status = .markedRollback then some t.reason else none

/-- The first participant of a given name. -/
def find? (t : Transaction) (id : ResourceId) : Option Enlisted :=
  t.resources.find? (·.adapter.id == id)

/-- How long the transaction may still run; zero when its time is over. -/
def remaining (t : Transaction) (now : Nat) : Option Duration :=
  t.timeout.map fun d => ⟨d.nanos - (now - t.start)⟩

/-- Whether the transaction has run for as long as its timeout allows. -/
def isOverdue (t : Transaction) (now : Nat) : Bool := t.timeout.any (·.nanos ≤ now - t.start)

/-- Whether the timeout is due and not yet noticed. -/
def isDue (t : Transaction) (now : Nat) : Bool :=
  t.isOverdue now && t.status == .active && !t.timedOut

def text (t : Transaction) : String :=
  let owner := match t.owner with
    | none => "None"
    | some k => "Some(" ++ toString k ++ ")"
  "Transaction \x7b tx_id: TxId(" ++ t.id.text ++ "), status: " ++ t.status.name ++
    ", resources: " ++ toString t.resources.length ++ ", owner: " ++ owner ++ " \x7d"

/-! ### Marking for rollback -/

/-- Mark for rollback; the first reason stays. -/
def mark (t : Transaction) (why : RollbackReason) : Transaction :=
  { t with status := .markedRollback, rollbackReason := t.rollbackReason <|> some why }

@[simp] theorem id_mark (t : Transaction) (why : RollbackReason) : (t.mark why).id = t.id := rfl

@[simp] theorem status_mark (t : Transaction) (why : RollbackReason) :
    (t.mark why).status = .markedRollback := rfl

@[simp] theorem resources_mark (t : Transaction) (why : RollbackReason) :
    (t.mark why).resources = t.resources := rfl

def markRollbackOnly (t : Transaction) (why : RollbackReason) : Except TxError Transaction :=
  match t.status with
  | .active | .preparing => .ok (t.mark why)
  | .markedRollback => .ok t
  | s => .error (.illegalState (.cannotMark t.id s))

/-- Mark for rollback because the time is over. -/
def expire (t : Transaction) : Transaction :=
  match t.timeout with
  | none => t
  | some d => { t with timedOut := true }.mark (.timedOut d)

/-! ### Enlistment -/

/-- Whether a participant and an adapter stand for the same resource. -/
def Enlisted.matches (a : AdapterKey) (e : Enlisted) : Bool :=
  e.adapter.ref == a.ref || e.adapter.isSame a

def updateFirst {α : Type} (p : α → Bool) (f : α → α) : List α → List α
  | [] => []
  | x :: xs => if p x then f x :: xs else x :: updateFirst p f xs

/-- Enlist a resource. The answer is whether it is a new participant; one that takes part already is
associated again. -/
def enlist (t : Transaction) (a : Adapter) : Except TxError (Bool × Transaction) :=
  if t.status ≠ .active then .error (.illegalState (.cannotEnlist a.id t.id t.status))
  else if t.resources.any (Enlisted.matches a.toAdapterKey) then
    let resources := updateFirst (Enlisted.matches a.toAdapterKey)
      (fun e => { e with delisted := none }) t.resources
    .ok (false, { t with resources })
  else
    match if a.twoPhase then none else t.resources.find? (fun e => !e.adapter.twoPhase) with
    | some e => .error (.multipleLastAgents t.id e.adapter.id a.id)
    | none => .ok (true, { t with resources := t.resources ++ [⟨a, .enlisted, none⟩] })

/-- End the association of a resource, which remains a participant. The answer is whether it was
associated. -/
def delist (t : Transaction) (a : AdapterKey) (flag : DelistFlag) :
    Except TxError (Bool × Transaction) :=
  if (t.status ≠ .active ∧ t.status ≠ .markedRollback) ∨ t.completing then
    .error (.illegalState (.cannotDelist t.id t.status))
  else
    match t.resources.find? (Enlisted.matches a) with
    | none => .ok (false, t)
    | some e =>
      if e.delisted.isSome then .ok (false, t)
      else
        let resources := updateFirst (Enlisted.matches a)
          (fun e => { e with delisted := some flag }) t.resources
        let t := { t with resources }
        match flag with
        | .success => .ok (true, t)
        | .fail => .ok (true, t.mark (.delistedWithFailure e.adapter.id))

/-- Set what is known of the participant at a place. -/
def setResourceStatus (t : Transaction) (index : Nat) (s : ResourceStatus) : Transaction :=
  { t with resources := t.resources.modify index fun e => { e with status := s } }

@[simp] theorem status_setResourceStatus (t : Transaction) (i : Nat) (s : ResourceStatus) :
    (t.setResourceStatus i s).status = t.status := rfl

@[simp] theorem length_resources_setResourceStatus (t : Transaction) (i : Nat)
    (s : ResourceStatus) : (t.setResourceStatus i s).resources.length = t.resources.length := by
  simp [setResourceStatus]

/-! ### Callbacks -/

def register (t : Transaction) (s : Synchronization) (interposed : Bool) :
    Except TxError Transaction :=
  if t.status ≠ .active ∨ t.completing then
    .error (.illegalState (.cannotRegister t.id t.status))
  else if interposed then .ok { t with interposed := t.interposed ++ [s] }
  else .ok { t with regular := t.regular ++ [s] }

/-! ### Ownership -/

/-- Associate with a task, unless another task holds the transaction. -/
def claim (t : Transaction) (k : TaskId) : Except TaskId Transaction :=
  match t.owner with
  | some owner => if owner = k then .ok t else .error owner
  | none => .ok { t with owner := some k }

/-- End the association with a task, if it is that task's. -/
def release (t : Transaction) (k : TaskId) : Transaction :=
  if t.owner = some k then { t with owner := none } else t

/-! ### Completion -/

/-- How a request to commit is met. -/
inductive Admission
  | refused (why : Misuse)
  /-- The transaction is marked and is rolled back instead. -/
  | toRollBack
  /-- The callbacks are asked first. -/
  | toCommit (callbacks : List Synchronization)
deriving DecidableEq

/-- Meet a request to commit. Once one is admitted no other completion starts. -/
def admitCommit (t : Transaction) : Admission × Transaction :=
  if t.completing then (.refused (.alreadyCompleting t.id), t)
  else
    match t.status with
    | .active => (.toCommit t.beforeOrder, { t with completing := true })
    | .markedRollback => (.toRollBack, { t with completing := true })
    | s => (.refused (.cannotCommit t.id s), t)

def admitRollback (t : Transaction) : Option Misuse × Transaction :=
  if t.completing ∨ (t.status ≠ .active ∧ t.status ≠ .markedRollback) then
    (some (.cannotRollBack t.id t.status), t)
  else (none, { t with completing := true })

/-- Whether the participants commit without a vote: there is none, or one with a first phase. -/
def isDirect : List Participant → Bool
  | [] => true
  | [p] => p.twoPhase
  | _ => false

/-- Let no more participants in, unless the transaction is marked. -/
def enterCommit (t : Transaction) : Option (List Participant) × Transaction :=
  if t.status = .markedRollback then (none, t)
  else
    let status := if isDirect t.participants then .committing else .preparing
    (some t.participants, { t with status })

/-- Accept no more marks, unless the transaction is marked already; the answer is the reason. -/
def enterPrepared (t : Transaction) : Option RollbackReason × Transaction :=
  match t.markedReason with
  | some reason => (some reason, t)
  | none => (none, { t with status := .prepared })

/-- Start to roll back, and tell who takes part. -/
def enterRollback (t : Transaction) : List Participant × Transaction :=
  (t.participants, { t with status := .rollingBack })

/-- The transaction after its completion, which has taken the callbacks. -/
def finish (t : Transaction) (s : Status) : Transaction :=
  { t with status := s, completing := false, regular := [], interposed := [] }

end Transaction

end TwoPhaseCommit
