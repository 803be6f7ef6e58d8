import TwoPhaseCommit.Service.Config

/-!
# Opening a data directory

A service lives in a data directory. It makes the directory, settles its settings, takes the lock
that keeps other services out, and opens the log; recovery and the coordinator come after that.
-/

namespace TwoPhaseCommit

/-- A data directory that a service has taken. -/
structure Opening where
  config : ServiceConfig
  /-- The path of the directory from the root. -/
  dataDir : String
  /-- The file on which the lock is held. -/
  lock : FileId
  log : Log

namespace Opening

def lockName : String := ".lock"

def makeDir (dir : String) : FileM SystemFault Unit :=
  (FileM.makeTree dir).mapError (.directoryNotMade dir)

def takeLock (dir : String) : FileM SystemFault FileId := do
  let file ← (FileM.openOrCreate (Path.join dir lockName)).mapError .lockNotOpened
  match (← get).lock? file with
  | some fs =>
    set fs
    return file
  | none => throw (.inUse dir)

def release (lock : FileId) : FileM SystemFault Unit := modify (·.unlock lock)

/-- Take a data directory with given settings. If the log cannot be opened, the lock is let go. -/
def start (dir : String) (config : ServiceConfig) : FileM SystemFault Opening := do
  let dataDir ← (FileM.ask (·.canonical dir)).mapError (.directoryNotResolved dir)
  let lock ← takeLock dataDir
  try
    let log ← (config.log dataDir).open.mapError .storage
    return ⟨config, dataDir, lock, log⟩
  catch e =>
    release lock
    throw e

def configPath (dir : String) : String := Path.join dir ServiceConfig.fileName

/-- Take a data directory with the settings it holds, which are the defaults if it holds none. -/
def «open» (dir : String) : FileM SystemFault Opening := do
  makeDir dir
  (ServiceConfig.writeDefaultIfMissing (configPath dir)).mapError .config
  let config ← (ServiceConfig.read (configPath dir)).mapError .config
  start dir config

/-- Take a data directory and give it new settings. -/
def openWith (dir : String) (config : ServiceConfig) : FileM SystemFault Opening := do
  FileM.mapError .config (FileM.ask fun _ => config.validate)
  makeDir dir
  (config.write (configPath dir)).mapError .config
  start dir config

end Opening

end TwoPhaseCommit
