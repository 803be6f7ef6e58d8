import TwoPhaseCommit.Scenario.World

/-!
# Taking steps

Every action of a script is carried out on the world and has a reply. Names are looked up first; one
that stands for nothing is the reply.
-/

namespace TwoPhaseCommit.Scenario.World

/-- Timeouts of at most this length pass at once. -/
def shortTimeout : Duration := Duration.ofMillis 10

/-- Let a short timeout pass. -/
def pass (timeout : Option Duration) (s : System) : System :=
  match timeout with
  | some d => if d.nanos ≤ shortTimeout.nanos then { s with clock := s.clock + d.nanos } else s
  | none => s

/-- The world with a transaction that was just begun, under its name. -/
def begun (w : World) (name : String) (r : TxRef) (s : System) : World :=
  { w with system := pass (s.tx r).timeout s, names := w.names.push name }

/-- Go on with what a name stands for. -/
def withName {α : Type} (name : String) (found : Option α) (w : World) (f : α → Reply × World) :
    Reply × World :=
  match found with
  | none => (.unbound name, w)
  | some a => f a

/-- Go on with a changed system, or reply with the error. -/
def change {α : Type} (w : World) (result : Except TxError (α × System)) (reply : α → Reply) :
    Reply × World :=
  match result with
  | .ok (a, system) => (reply a, { w with system })
  | .error e => (.failed e, w)

/-- Put a changed transaction in its place, or reply with the error. -/
def changeTx {α : Type} (w : World) (r : TxRef) (result : Except TxError (α × Transaction))
    (reply : α → Reply) : Reply × World :=
  w.change (result.map fun (a, t) => (a, w.system.modifyTx r fun _ => t)) reply

/-! ### Transactions -/

def info (w : World) (t : Transaction) : TxInfo where
  status := t.status
  timedOut := t.timedOut
  reason := t.rollbackReason
  owner := t.owner
  timeout := t.timeout
  remaining := t.remaining w.system.clock
  resources := t.resources.map fun e =>
    let first := t.find? e.adapter.id
    (e.adapter.id, first.map (·.status), first.bind (·.delisted))

def actTx (step : Stepper) (w : World) (r : TxRef) : TxAction → Reply × World
  | .enlist a => w.withName a (w.actor? a) fun x =>
    w.changeTx r ((w.system.tx r).enlist x.adapter) .flag
  | .delist a flag => w.withName a (w.actor? a) fun x =>
    w.changeTx r ((w.system.tx r).delist x.adapter.toAdapterKey flag) .flag
  | .mark =>
    w.changeTx r (((w.system.tx r).markRollbackOnly .markedRollbackOnly).map ((), ·)) fun _ => .done
  | .register c interposed => w.withName c (w.listeners.findIdx? (·.handle == c)) fun ref =>
    w.changeTx r (((w.system.tx r).register ⟨ref⟩ interposed).map ((), ·)) fun _ => .done
  | .commit => w.withName "manager" w.manager fun m =>
    let (result, w) := w.run step (Coordinator.commit m r)
    (Reply.ofUnit result, w)
  | .rollback => w.withName "manager" w.manager fun m =>
    let (result, w) := w.run step (Coordinator.rollback m r)
    (Reply.ofUnit result, w)
  | .info => (.info (w.info (w.system.tx r)), w)
  | .resourceStatus id =>
    let found := (w.system.tx r).find? id
    (.resourceStatus (found.map (·.status)) (found.bind (·.delisted)), w)
  | .text => (.text (some (w.system.tx r).text), w)
  | .isSame other => w.withName other (w.tx? other) fun q => (.flag (q == r), w)

/-! ### Managers -/

/-- Begin transactions until one cannot be begun. -/
def beginMany (m : ManagerRef) (name : String) : (count next : Nat) → World → Reply × World
  | 0, next, w => (.begunMany next none, w)
  | n + 1, next, w =>
    match w.system.begin m none with
    | .error e => (.begunMany next (some e), w)
    | .ok (r, s) => beginMany m name n (next + 1) (w.begun (name ++ toString next) r s)

/-- The file of a log that is opened again after a restart. -/
def logPath (w : World) : String := Path.join w.root "txcoord.log"

def addManager (w : World) (log : LogRef) : World :=
  let (m, system) := w.system.addManager w.config log
  { w with system, manager := some m, log := some log }

def addLog (w : World) (log : Log) : World :=
  { w with logs := w.logs.push log }.addManager w.logs.size

/-- Put a new manager on a new log that the script keeps. -/
def addOwnLog (w : World) (log : Log) : World :=
  { w.addLog log with ownLog := some w.logs.size }

/-- Open the log file and put a new manager on it. If that fails there is none. -/
def openLogFile (w : World) : Reply × World :=
  match (FileLog.open w.logPath).exec w.files with
  | (.error e, files) => (.storageFailed e, { w with files, manager := none, log := none })
  | (.ok log, files) => (.restarted (some log), { w with files }.addLog (.file log))

/-- Put a new manager on the script's own log, which outlives the old one. The manager of a service
stays if there is no such log. -/
def restart (w : World) (config : Option CoordinatorConfig) : Reply × World :=
  let w := { w with config := config.getD w.config }
  match w.logKind with
  | .file => w.openLogFile
  | .ephemeral => (.restarted none, w.addLog (.memory []))
  | .recording | .memory | .service => (.restarted none, (w.ownLog.map w.addManager).getD w)

def actManager (w : World) (m : ManagerRef) : ManagerAction → Reply × World
  | .begin name timeout =>
    match w.system.begin m timeout with
    | .error e => (.failed e, w)
    | .ok (r, s) => (.begun (s.tx r).status (s.tx r).timeout, w.begun name r s)
  | .beginMany name count => beginMany m name count 0 w
  | .force tx => w.withName tx (w.txId? tx) fun id =>
    w.change ((w.system.force m id).map ((), ·)) fun _ => .done
  | .get tx =>
    let found := ((w.txId? tx).bind (w.system.inFlight? m)).map fun r =>
      let t := w.system.tx r
      (t.id, t.status, (w.tx? tx).map (· == r))
    (.found found, w)
  | .reap =>
    let (n, system) := w.system.reap m
    (.count n, { w with system })
  | .runReaper =>
    let (n, system) := w.system.reap m
    (.reaperRan n, { w with system })
  | .stats => (.stats (w.system.manager m).stats, w)
  | .count => (.count (w.system.manager m).active, w)
  | .active =>
    let txs := (w.system.manager m).registered.map fun r =>
      let t := w.system.tx r
      (t.id, t.status, t.resources.map (·.adapter.id))
    (.active txs, w)
  | .config => (.managerConfig (w.system.manager m).config, w)

/-! ### Logs -/

/-- Make the appends of a recording log fail, or let them pass. -/
def setFailing (on : Bool) : Log → Log
  | .recording rs _ => .recording rs on
  | log => log

/-- Make the appends of the script's own recording log fail, or let them pass. -/
def failAppends (w : World) (on : Bool) : Reply × World :=
  match w.logKind, w.ownLog with
  | .recording, some ref => (.done, { w with logs := w.logs.modify ref (setFailing on) })
  | _, _ => (.unbound "log", w)

/-- Note the times of records that the script gives. -/
def noteTimes (w : World) (ds : List Draft) : World :=
  { w with times := ds.map (·.timestamp) ++ w.times }

def actLog (step : Stepper) (w : World) (ref : LogRef) : LogAction → Reply × World
  | .readAll =>
    match w.onLog ref fun l => return (← l.readAll, l) with
    | (.ok rs, w) => (.records (rs.map fun r => (r, w.times.contains r.timestamp)), w)
    | (.error e, w) => (.storageFailed e, w)
  | .append d =>
    match w.record? d with
    | .error name => (.unbound name, w)
    | .ok r =>
      match (w.noteTimes [d]).appendLog ref r with
      | (.ok (), w) => (.done, w)
      | (.error e, w) => (.storageFailed e, w)
  | .replace ds =>
    match ds.mapM w.record? with
    | .error name => (.unbound name, w)
    | .ok rs =>
      match (w.noteTimes ds).onLog ref fun l => return ((), ← l.replace rs) with
      | (.ok (), w) => (.done, w)
      | (.error e, w) => (.storageFailed e, w)
  | .info =>
    let durable := ((w.logs[ref]?).map (·.isDurable)).getD false
    let held := (w.ownLog.bind (w.logs[·]?)).bind (·.held?)
    (.logInfo durable (held.map (·.length)), w)
  | .recover adapters =>
    match w.adapters? adapters with
    | .error name => (.unbound name, w)
    | .ok keys =>
      let g := Registry.ofList keys
      match w.run step (Recovery.recover ref g) with
      | (.ok st, w) => (.recovered (g.map (·.id)) st, w)
      | (.error e, w) => (.storageFailed e, w)

/-! ### Contexts -/

def dropContext (w : World) (name : String) : World :=
  match w.contexts.lookup name with
  | none => w
  | some c =>
    { w with system := c.drop w.system, contexts := w.contexts.filter (·.1 ≠ name) }

/-- Give a context a name, and drop the one that had it. -/
def putContext (w : World) (name : String) (c : Context) : World :=
  let w := w.dropContext name
  { w with contexts := (name, c) :: w.contexts }

/-- Carry out an action on a context that has no name meanwhile. -/
def actContext (step : Stepper) (w : World) (c : Context) :
    ContextAction → Reply × Option Context × World
  | .begin name =>
    match c.begin w.system with
    | .error e => (.failed e, some c, w)
    | .ok (r, c, s) => (.begun (s.tx r).status (s.tx r).timeout, some c, w.begun name r s)
  | .commit =>
    let ((result, c), w) := w.run step c.commit
    (Reply.ofUnit result, some c, w)
  | .rollback =>
    let ((result, c), w) := w.run step c.rollback
    (Reply.ofUnit result, some c, w)
  | .mark =>
    match c.setRollbackOnly w.system with
    | .ok system => (.done, some c, { w with system })
    | .error e => (.failed e, some c, w)
  | .status => (.status (c.status w.system), some c, w)
  | .transaction => (.held (c.current.map fun r => (w.system.tx r).id), some c, w)
  | .suspend =>
    let (r, c, system) := c.suspend w.system
    (.suspended (r.map fun r => (system.tx r).id), some c, { w with system })
  | .resume tx =>
    match w.tx? tx with
    | none => (.unbound tx, some c, w)
    | some r =>
      match c.resume r w.system with
      | .ok (c, system) => (.done, some c, { w with system })
      | .error e => (.failed e, some c, w)
  | .setTimeout timeout => (.done, some { c with timeout }, w)
  | .managerCount => (.count (w.system.manager c.manager).active, some c, w)
  | .drop => (.done, none, { w with system := c.drop w.system })

/-! ### Adapters -/

def actAdapter (step : Stepper) (w : World) (ref : Nat) (x : Actor) : AdapterAction → Reply × World
  | .prepare tx => w.withName tx (w.txId? tx) fun id =>
    match w.answer step (.prepare x.adapter.toAdapterKey id) with
    | (.ok v, w) => (.vote v, w)
    | (.error e, w) => (.resourceFailed e, w)
  | .commit tx onePhase => w.withName tx (w.txId? tx) fun id =>
    unit (w.answer step (.commit x.adapter.toAdapterKey id onePhase))
  | .rollback tx => w.withName tx (w.txId? tx) fun id =>
    unit (w.answer step (.rollback x.adapter.toAdapterKey id))
  | .inDoubt =>
    match w.reported ref with
    | .ok txs => (.ids txs, w)
    | .error e => (.resourceFailed e, w)
  | .isSame other => w.withName other (w.actor? other) fun y =>
    (.sameness (x.adapter.isSame y.adapter.toAdapterKey) x.adapter.twoPhase, w)
  | .setCommitFailure commitFailure => (.done, set { x with commitFailure })
  | .setRollbackFailure rollbackFailure => (.done, set { x with rollbackFailure })
  | .state tx =>
    let found := (tx.bind w.txId?).map fun id =>
      ⟨x.committed.contains id, x.rolledBack.contains id, x.inDoubt.contains id⟩
    (.adapterState x.committed.length x.rolledBack.length found, w)
where
  unit : Except ResourceError Unit × World → Reply × World
    | (.ok (), w) => (.done, w)
    | (.error e, w) => (.resourceFailed e, w)
  set (x : Actor) : World := { w with actors := w.actors.setIfInBounds ref x }

/-! ### Services -/

def dropService (w : World) : World :=
  match w.service with
  | none => w
  | some s => { w with files := s.drop w.files, service := none }

/-- Put a new service in the place of the one before, which is dropped. -/
def installService (w : World) (s : Service) (log : LogRef) : Reply × World :=
  let w := w.dropService
  let durable := ((w.logs[log]?).map (·.isDurable)).getD false
  (.service s durable,
    { w with service := some s, manager := some s.manager, log := some log })

/-- Open a service in a data directory. If recovery fails, the directory is let go. -/
def openService (step : Stepper) (w : World) (opening : FileM SystemFault Opening)
    (adapters : List AdapterKey) : Reply × World :=
  match opening.exec w.files with
  | (.error e, files) => (.failed (.system e), { w with files })
  | (.ok o, files) =>
    let log := w.logs.size
    let w := { w with files, logs := w.logs.push o.log }
    match w.run step (Recovery.recover log (Registry.ofList adapters)) with
    | (.error e, w) => (.failed e.toTxError, { w with files := w.files.unlock o.lock })
    | (.ok st, w) =>
      let (s, system) := Service.ofOpening o st log w.system
      { w with system }.installService s log

def actService (step : Stepper) (w : World) : ServiceAction → Reply × World
  | .open dir config adapters =>
    match w.adapters? adapters with
    | .error name => (.unbound name, w)
    | .ok keys =>
      let dir := Path.join w.root dir
      let opening := match config with
        | none => Opening.open dir
        | some c => Opening.openWith dir c
      w.openService step opening keys
  | .ephemeral =>
    let log := w.logs.size
    let (s, system) := Service.ephemeral log w.system
    { w with system, logs := w.logs.push (.memory []) }.installService s log
  | .shutdown => w.withName "service" w.service fun s =>
    let s := s.shutdown
    (.reaping s.reaping, { w with service := some s })
  | .drop => (.done, { w.dropService with manager := none, log := none })

/-! ### Files -/

def onFiles {α : Type} (w : World) (x : FileM IoError α) (reply : α → Reply) : Reply × World :=
  match x.exec w.files with
  | (.ok a, files) => (reply a, { w with files })
  | (.error e, files) => (.storageFailed (.io e), { w with files })

/-- Remove bytes from the end of a file; the result is its new length. -/
def cutFile (path : String) (count : Nat) : FileM IoError Nat := do
  let file ← FileM.ask (·.openFile path)
  let bytes := (← get).content file
  let kept := bytes.take (bytes.length - count)
  modify (·.setContent file kept)
  return kept.length

/-- Write a file, in directories that are made where they are missing. -/
def writeFile (path : String) (bytes : Bytes) : FileM IoError Unit := do
  match Path.parent? path with
  | some dir => FileM.makeTree dir
  | none => pure ()
  FileM.write path bytes

/-- Add bytes to the end of a file, made if it is missing. -/
def appendFile (path : String) (bytes : Bytes) : FileM IoError Unit := do
  let file ← FileM.openOrCreate path
  modify (·.appendContent file bytes)

def actFile (w : World) (name : String) : FileAction → Reply × World
  | .write bytes => w.onFiles (writeFile (Path.join w.root name) bytes) fun _ => .done
  | .append bytes => w.onFiles (appendFile (Path.join w.root name) bytes) fun _ => .done
  | .cut count => w.onFiles (cutFile (Path.join w.root name) count) .count
  | .text => (.text (w.files.readText (Path.join w.root name)).toOption, w)
  | .length =>
    (.length ((w.files.file? (Path.join w.root name)).map fun f => (w.files.content f).length), w)
  | .makeDirectory => w.onFiles (FileM.makeTree (Path.join w.root name)) fun _ => .done

/-! ### Actions -/

/-- Carry out an action; `step` takes the steps within calls. -/
def act (step : Stepper) : Action → World → Reply × World
  | .tx name a, w => w.withName name (w.tx? name) fun r => w.actTx step r a
  | .manager a, w => w.withName "manager" w.manager fun m => w.actManager m a
  | .restart config, w => w.restart config
  | .log a, w => w.withName "log" w.log fun ref => w.actLog step ref a
  | .failAppends on, w => w.failAppends on
  | .outcomes c, w => w.withName c (w.listeners.find? (·.handle == c)) fun x =>
    (.statuses x.outcomes, w)
  | .newContext name, w =>
    w.withName "manager" w.manager fun m =>
      let (c, system) := Context.new ((w.service.map (·.manager)).getD m) w.system
      (.count c.task.number, { w with system }.putContext name c)
  | .context name a, w => w.withName name (w.contexts.lookup name) fun c =>
    match { w with contexts := w.contexts.filter (·.1 ≠ name) }.actContext step c a with
    | (reply, some c, w) => (reply, w.putContext name c)
    | (reply, none, w) => (reply, w)
  | .adapter name a, w => w.withName name (w.actorRef? name) fun ref =>
    w.withName name (w.actor? name) fun x => w.actAdapter step ref x a
  | .service a, w => w.actService step a
  | .file name a, w => w.actFile name a

/-- Carry out an action, with steps within calls nested up to a depth. -/
def perform : (depth : Nat) → Action → World → Reply × World
  | 0, _, w => (.done, w)
  | depth + 1, a, w => act (perform depth) a w

end TwoPhaseCommit.Scenario.World
