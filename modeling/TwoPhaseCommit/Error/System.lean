import TwoPhaseCommit.Error.Storage
import TwoPhaseCommit.Id

/-!
# Failures of the system

Settings that cannot be used, and data directories that cannot be taken.
-/

namespace TwoPhaseCommit

/-- The smallest settings a coordinator can work with are not met. -/
inductive CoordinatorConfigError
  | zeroMaxActive
  | zeroReaperInterval
deriving DecidableEq

/-- The wording of settings that no coordinator can work with. -/
def CoordinatorConfigError.message : CoordinatorConfigError → String
  | zeroMaxActive => "max_active must be at least 1"
  | zeroReaperInterval => "reaper_interval must be greater than zero"

/-- Why the settings of a service cannot be used. -/
inductive ConfigFault
  | emptyLogFile
  | coordinator (error : CoordinatorConfigError)
  | unreadable (path : String) (error : IoError)
  | malformed (path : String)
  | unserializable
  | unwritable (path : String) (error : IoError)
  | defaultUnwritable (path : String) (error : IoError)
deriving DecidableEq

def ConfigFault.message : ConfigFault → String
  | emptyLogFile => "Invalid txcoord.toml: log_file must not be empty when durability is \"always\""
  | coordinator e => "Invalid txcoord.toml: " ++ e.message
  | unreadable p e => "Failed to read config file '" ++ p ++ "': " ++ e.message
  | malformed p => "Failed to parse config file '" ++ p ++ "'"
  | unserializable => "Failed to serialize config"
  | unwritable p e => "Failed to write config file '" ++ p ++ "': " ++ e.message
  | defaultUnwritable p e => "Failed to write default config file '" ++ p ++ "': " ++ e.message

/-- A failure within the coordinator or of what it stands on. -/
inductive SystemFault
  | storage (error : StorageError)
  | config (fault : ConfigFault)
  | directoryNotMade (path : String) (error : IoError)
  | directoryNotResolved (path : String) (error : IoError)
  | lockNotOpened (error : IoError)
  /-- Another service holds the data directory. -/
  | inUse (path : String)
  /-- A transaction that was just begun has an owner. -/
  | freshAlreadyOwned (tx : TxId) (owner : TaskId)
  | described (text : String)
deriving DecidableEq

def SystemFault.message : SystemFault → String
  | storage e => e.message
  | config f => f.message
  | directoryNotMade p e => "failed to create '" ++ p ++ "': " ++ e.message
  | directoryNotResolved p e => "failed to resolve '" ++ p ++ "': " ++ e.message
  | lockNotOpened e => "failed to open lock file: " ++ e.message
  | inUse p => "transaction log at '" ++ p ++ "' is already in use"
  | freshAlreadyOwned t k => s!"fresh transaction {t} already owned by {k}"
  | described t => t

end TwoPhaseCommit
