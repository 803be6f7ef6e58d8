import TwoPhaseCommit.Coordinator.Recovery
import TwoPhaseCommit.Service.Opening

/-!
# Services

A service is a manager with a log of its own, which it has recovered before anything else. It keeps
its data directory locked until it is dropped; a shutdown only stops the reaper.
-/

namespace TwoPhaseCommit

structure Service where
  config : ServiceConfig
  /-- The data directory; none for a service in memory. -/
  dataDir : Option String
  manager : ManagerRef
  /-- What recovery did when the service was opened. -/
  recovery : RecoveryStats
  /-- Whether timeouts are looked for. -/
  reaping : Bool
  /-- The file on which the lock of the data directory is held. -/
  lock : Option FileId

namespace Service

def ephemeralConfig : ServiceConfig := { durability := .cache }

/-- The service in a data directory that was taken, with its recovered log. -/
def ofOpening (o : Opening) (recovery : RecoveryStats) (log : LogRef) (s : System) :
    Service × System :=
  let (manager, s) := s.addManager o.config.coordinator log
  (⟨o.config, some o.dataDir, manager, recovery, true, some o.lock⟩, s)

def ephemeral (log : LogRef) (s : System) : Service × System :=
  let (manager, s) := s.addManager ephemeralConfig.coordinator log
  (⟨ephemeralConfig, none, manager, {}, true, none⟩, s)

/-- Stop looking for timeouts. -/
def shutdown (s : Service) : Service := { s with reaping := false }

/-- The files without a service, whose lock is let go. -/
def drop (s : Service) (fs : FileStore) : FileStore :=
  match s.lock with
  | none => fs
  | some lock => fs.unlock lock

end Service

end TwoPhaseCommit
