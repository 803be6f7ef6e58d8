import TwoPhaseCommit.Scenario.Perform

/-!
# Sessions

A session starts from a cast and a log and takes the steps of a script. Each step is reported: its
reply, what happened during it, and the transactions whose status has changed since the step before.
-/

namespace TwoPhaseCommit.Scenario

structure Report where
  reply : Reply
  events : List Event
  /-- The transactions whose status has changed, by name. -/
  changes : List (String × Status)

namespace World

/-- The world at the start of a session; without a kind of log, a service is to bring one. -/
def start (root : String) (files : FileStore) (clock seed : Nat) (actors : List Actor)
    (listeners : List Listener) (config : CoordinatorConfig) (kind : Option LogKind) : World :=
  let w : World := {
    system := { clock, seed }, root, files
    actors := actors.toArray, listeners := listeners.toArray
    logKind := kind.getD .service, config }
  match kind with
  | some .recording => w.addOwnLog (.recording [] false)
  | some .memory => w.addOwnLog (.memory [])
  | some .ephemeral => w.addLog (.memory [])
  | some .file => w.openLogFile.2
  | some .service | none => w

/-- How deeply steps within calls can nest: each takes up the steps of one call. -/
def depth (w : World) : Nat :=
  (w.actors.toList.flatMap (·.hooks)).length + (w.listeners.toList.flatMap (·.hooks)).length + 1

def step (w : World) (a : Action) : Report × World :=
  let (reply, w) := perform w.depth a { w with events := [] }
  let statuses := w.system.transactions.map (·.status)
  let changed := statuses.toList.zipIdx.filter fun (s, i) => w.shown[i]? ≠ some s
  let changes := changed.map fun (s, i) => (w.names.getD i "", s)
  (⟨reply, w.events.reverse, changes⟩, { w with shown := statuses })

end World

end TwoPhaseCommit.Scenario
