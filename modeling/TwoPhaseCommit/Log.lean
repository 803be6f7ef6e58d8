import TwoPhaseCommit.Log.File

/-!
# Logs

A log takes records one by one, gives them back in that order, and can be replaced as a whole. It
is kept in memory, in a file, or in memory with a journal of its appends and a switch that makes
them fail.
-/

namespace TwoPhaseCommit

/-- Whether the log touches the disk. -/
inductive DurabilityMode
  /-- In memory: every decision is lost in a crash. -/
  | cache
  /-- Every append is on disk before it returns. -/
  | always
deriving DecidableEq, Inhabited

namespace DurabilityMode

def requiresLogFile (m : DurabilityMode) : Bool := m != cache

def name : DurabilityMode → String
  | cache => "cache"
  | always => "always"

def ofName? (n : String) : Option DurabilityMode := [cache, always].find? (·.name == n)

def description : DurabilityMode → String
  | cache => "Cache (in-memory, decisions lost on crash)"
  | always => "Always sync (every decision durable before phase two)"

end DurabilityMode

inductive Log
  | memory (records : List LogRecord)
  /-- In memory, with a journal of its appends, which fail while `failing`. -/
  | recording (records : List LogRecord) (failing : Bool)
  | file (log : FileLog)

namespace Log

def append (r : LogRecord) : Log → FileM StorageError Log
  | memory rs => return memory (rs ++ [r])
  | recording rs false => return recording (rs ++ [r]) false
  | recording _ true => throw (.io .injected)
  | file log => file <$> log.append r none

/-- Every record, in the order of the appends. -/
def readAll : Log → FileM StorageError (List LogRecord)
  | memory rs | recording rs _ => return rs
  | file log => log.readAll

def replace (rs : List LogRecord) : Log → FileM StorageError Log
  | memory _ => return memory rs
  | recording _ f => return recording rs f
  | file log => file <$> log.replace rs

def isDurable : Log → Bool
  | file _ => true
  | _ => false

/-- The records of a log that is only in memory. -/
def held? : Log → Option (List LogRecord)
  | memory rs => some rs
  | _ => none

end Log

/-! ### Settings -/

structure LogConfig where
  /-- The path of the file; without meaning for a log in memory. -/
  path : String := "txcoord.log"
  mode : DurabilityMode := .always
deriving DecidableEq

namespace LogConfig

def inMemory : LogConfig := ⟨"", .cache⟩

/-- Whether a log can be opened with these settings. -/
def validate (c : LogConfig) (fs : FileStore) : Except LogConfigError Unit :=
  if c.mode.requiresLogFile then
    if c.path = "" then .error .missingPath
    else if fs.isDirectory c.path then .error (.pathIsDirectory c.path)
    else .ok ()
  else .ok ()

def «open» (c : LogConfig) : FileM StorageError Log := do
  FileM.mapError (.invalidOperation ∘ .config) (FileM.ask c.validate)
  match c.mode with
  | .cache => return .memory []
  | .always => Log.file <$> FileLog.open c.path

end LogConfig

end TwoPhaseCommit
