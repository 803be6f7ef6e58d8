import TwoPhaseCommit.Scenario.Actors

/-!
# The world of a script

A world is a system together with all that surrounds it, and the names by which a script knows the
parts. It answers the questions of the coordinator; within an answer it may take further steps.
-/

namespace TwoPhaseCommit.Scenario

/-- Which log a script works on. -/
inductive LogKind
  /-- In memory, with its appends recorded. -/
  | recording
  /-- In memory, with its length told. -/
  | memory
  /-- In a file, which a restart opens again. -/
  | file
  /-- In memory, and new after a restart. -/
  | ephemeral
  /-- The log of a service. -/
  | service
deriving DecidableEq

/-- A system and its surroundings. -/
structure World where
  system : System
  /-- The directory to which names of files are relative. -/
  root : String
  files : FileStore
  logs : Array Log := #[]
  actors : Array Actor := #[]
  listeners : Array Listener := #[]
  /-- The names of the transactions, in order of begin. -/
  names : Array String := #[]
  contexts : List (String × Context) := []
  manager : Option ManagerRef := none
  log : Option LogRef := none
  logKind : LogKind
  /-- The script's own log in memory, which stays when a service brings another. -/
  ownLog : Option LogRef := none
  /-- The settings of managers that are put on the log. -/
  config : CoordinatorConfig
  service : Option Service := none
  /-- The times of the records that the script has given. -/
  times : List UInt64 := []
  /-- What happened during the step, latest first. -/
  events : List Event := []
  /-- The statuses after the step before, in order of begin. -/
  shown : Array Status := #[]

namespace World

/-! ### Names -/

/-- The transaction of a name: the latest one. -/
def tx? (w : World) (name : String) : Option TxRef :=
  (w.names.toList.reverse.findIdx? (· == name)).map (w.names.size - 1 - ·)

/-- The id that a name stands for, or that a text spells. -/
def txId? (w : World) (name : String) : Option TxId :=
  match w.tx? name with
  | some r => some (w.system.tx r).id
  | none => TxId.parse name

def actorRef? (w : World) (handle : String) : Option Nat := w.actors.findIdx? (·.handle == handle)

def actor? (w : World) (handle : String) : Option Actor := w.actors.find? (·.handle == handle)

/-- The first name of a list that stands for no actor, or the adapters that the names stand for. -/
def adapters? (w : World) (handles : List String) : Except String (List AdapterKey) :=
  handles.mapM fun h =>
    match w.actor? h with
    | some x => .ok x.adapter.toAdapterKey
    | none => .error h

/-- A record with the transaction that its text stands for. -/
def record? (w : World) (d : Draft) : Except String LogRecord :=
  match w.txId? d.tx with
  | some tx => .ok ⟨tx, d.decision, d.pending, d.timestamp⟩
  | none => .error d.tx

/-! ### Answers -/

def note (w : World) (source : String) (tx : Option TxId) (call : Call) : World :=
  { w with events := .call ⟨source, tx, call⟩ :: w.events }

/-- Order of transactions in doubt: those begun here by begin, then others by id. -/
def doubtOrder (w : World) (a b : TxId) : Bool :=
  match w.system.find? a, w.system.find? b with
  | some i, some j => i ≤ j
  | some _, none => true
  | none, some _ => false
  | none, none => TxId.le a b

def reported (w : World) (ref : Nat) : Except ResourceError (List TxId) :=
  match w.actors[ref]? with
  | none => .ok []
  | some x =>
    match x.reports with
    | some (.error e) => .error e
    | some (.ok names) => .ok (names.filterMap w.txId?)
    | none => .ok (x.inDoubt.mergeSort w.doubtOrder)

/-- A way to take steps. -/
abbrev Stepper := Action → World → Reply × World

/-- Take steps from within a call. -/
def runHooks (step : Stepper) (place : String) (hooks : List (String × Action)) (w : World) :
    World :=
  hooks.foldl (fun w (word, act) =>
    let (reply, w) := step act w
    { w with events := .hook place word reply :: w.events }) w

def callActor {α : Type} (step : Stepper) (a : AdapterKey) (p : HookPoint) (tx : TxId) (call : Call)
    (agree : α) (f : Actor → α × Actor) (w : World) : α × World :=
  match w.actors[a.ref]? with
  | none => (agree, w)
  | some x =>
    if x.bare then (agree, w)
    else
      let w := w.note x.adapter.id.name (some tx) call
      let (answer, x) := f x
      let (hooks, x) := x.takeHooks p
      let w := { w with actors := w.actors.setIfInBounds a.ref x }
      (answer, w.runHooks step (x.handle ++ "." ++ p.name) hooks)

def callListener (step : Stepper) (c : Synchronization) (p : HookPoint) (call : Call)
    (f : Listener → Except ResourceError Unit × Listener) (w : World) :
    Except ResourceError Unit × World :=
  match w.listeners[c.ref]? with
  | none => (.ok (), w)
  | some x =>
    let w := w.note x.handle none call
    let (answer, x) := f x
    let (hooks, x) := x.takeHooks p
    let w := { w with listeners := w.listeners.setIfInBounds c.ref x }
    (answer, w.runHooks step (x.handle ++ "." ++ p.name) hooks)

def onLog {α : Type} (w : World) (ref : LogRef) (f : Log → FileM StorageError (α × Log)) :
    Except StorageError α × World :=
  match w.logs[ref]? with
  | none => (.error (.io .notFound), w)
  | some log =>
    match (f log).exec w.files with
    | (.ok (a, log), files) => (.ok a, { w with files, logs := w.logs.setIfInBounds ref log })
    | (.error e, files) => (.error e, { w with files })

/-- Append to a log. An append that a recording log takes is noted. -/
def appendLog (w : World) (ref : LogRef) (r : LogRecord) : Except StorageError Unit × World :=
  match w.onLog ref fun log => return ((), ← log.append r) with
  | (.ok (), w) =>
    match w.logs[ref]? with
    | some (.recording ..) => (.ok (), w.note "log" (some r.tx) (.append r.decision r.pending))
    | _ => (.ok (), w)
  | (.error e, w) => (.error e, w)

/-- Answer a question of the coordinator. -/
def answer (step : Stepper) : (q : Question) → World → q.Answer × World
  | .prepare a tx, w => w.callActor step a .prepare tx .prepare (.ok .commit) (·.prepare tx)
  | .commit a tx onePhase, w =>
    w.callActor step a .commit tx (.commit onePhase) (.ok ()) (·.commit tx)
  | .rollback a tx, w => w.callActor step a .rollback tx .rollback (.ok ()) (·.rollback tx)
  | .inDoubt a, w => (w.reported a.ref, w)
  | .append log r, w => w.appendLog log r
  | .readAll log, w => w.onLog log fun l => return (← l.readAll, l)
  | .replace log rs, w => w.onLog log fun l => return ((), ← l.replace rs)
  | .beforeCompletion c, w =>
    w.callListener step c .before .beforeCompletion fun x => (Listener.answer x.beforeFailure, x)
  | .afterCompletion c s, w =>
    w.callListener step c .after (.afterCompletion s) fun x =>
      (Listener.answer x.afterFailure, { x with outcomes := x.outcomes ++ [s] })
  | .turn, w => ((), w)

def run {α : Type} (step : Stepper) (p : Proc α) (w : World) : α × World :=
  let answer : Dialogue.Surroundings World := fun q system w =>
    let (a, w) := answer step q { w with system }
    (a, w.system, w)
  let (a, system, w) := (p w.system).run answer w
  (a, { w with system })

end World

end TwoPhaseCommit.Scenario
