import TwoPhaseCommit.Coordinator.Config
import TwoPhaseCommit.Log
import TwoPhaseCommit.Text.Blank
import TwoPhaseCommit.Toml.Reader

/-!
# Service settings

A service keeps its settings in the file `txcoord.toml` of its data directory. Missing keys take
their defaults and unknown ones are ignored. A directory without the file is given one with
comments.
-/

namespace TwoPhaseCommit

structure ServiceConfig where
  durability : DurabilityMode := .always
  /-- The log file, relative to the data directory. -/
  logFile : String := "txcoord.log"
  /-- The timeout of transactions that are begun without one; zero for none. -/
  defaultTimeoutSecs : Nat := 0
  maxActive : Nat := 8192
  /-- The time between two runs of the timeout reaper. -/
  reaperIntervalMs : Nat := 1000
deriving DecidableEq

namespace ServiceConfig

def fileName : String := "txcoord.toml"

def coordinator (c : ServiceConfig) : CoordinatorConfig :=
  ⟨Duration.ofSeconds c.defaultTimeoutSecs, c.maxActive, Duration.ofMillis c.reaperIntervalMs⟩

/-- The settings of the log, for a service with a given data directory. -/
def log (c : ServiceConfig) (dataDir : String) : LogConfig :=
  match c.durability with
  | .cache => LogConfig.inMemory
  | .always => ⟨Path.join dataDir c.logFile, .always⟩

def validate (c : ServiceConfig) : Except ConfigFault Unit :=
  if c.durability.requiresLogFile ∧ Text.isBlankText c.logFile then .error .emptyLogFile
  else c.coordinator.validate.mapError .coordinator

/-! ### Reading -/

/-- The mode that a value spells: its name, or a table with nothing but an empty value under its
name. -/
def mode? : Toml.Value → Option DurabilityMode
  | .string s => DurabilityMode.ofName? s
  | .table _ [(name, .table _ [])] | .table _ [(name, .array [])] => DurabilityMode.ofName? name
  | _ => none

def text? : Toml.Value → Option String
  | .string s => some s
  | _ => none

def count? : Toml.Value → Option Nat
  | .integer n => if 0 ≤ n then some n.toNat else none
  | _ => none

/-- The value under a key as `f` takes it, or the default if the key is missing. -/
def field {α : Type} (es : Toml.Entries) (key : String) (f : Toml.Value → Option α) (default : α) :
    Option α :=
  match es.lookup key with
  | none => some default
  | some v => f v

def ofEntries? (es : Toml.Entries) : Option ServiceConfig := do
  let d : ServiceConfig := {}
  return {
    durability := ← field es "durability" mode? d.durability
    logFile := ← field es "log_file" text? d.logFile
    defaultTimeoutSecs := ← field es "default_timeout_secs" count? d.defaultTimeoutSecs
    maxActive := ← field es "max_active" count? d.maxActive
    reaperIntervalMs := ← field es "reaper_interval_ms" count? d.reaperIntervalMs }

def ofText? (s : String) : Option ServiceConfig := Toml.read s >>= ofEntries?

def read (path : String) : FileM ConfigFault ServiceConfig := do
  let s ← (FileM.ask (·.readText path)).mapError (.unreadable path)
  match ofText? s with
  | none => throw (.malformed path)
  | some c =>
    FileM.ask fun _ => c.validate
    return c

/-! ### Writing -/

/-- The largest number that can be written. -/
def maxCount : Nat := 0x7fffffffffffffff

/-- The settings as a document; `none` if a number is too large for one. -/
def text (c : ServiceConfig) : Option String :=
  if [c.defaultTimeoutSecs, c.maxActive, c.reaperIntervalMs].all (· ≤ maxCount) then
    some (String.join [
      "durability = ", Toml.Text.write c.durability.name, "\n",
      "log_file = ", Toml.Text.write c.logFile, "\n",
      "default_timeout_secs = ", toString c.defaultTimeoutSecs, "\n",
      "max_active = ", toString c.maxActive, "\n",
      "reaper_interval_ms = ", toString c.reaperIntervalMs, "\n"])
  else none

def write (c : ServiceConfig) (path : String) : FileM ConfigFault Unit := do
  match c.text with
  | none => throw .unserializable
  | some s => (FileM.write path (Utf8.encode s)).mapError (.unwritable path)

/-- The settings file of a new data directory. -/
def defaultText : String := "# txcoord transaction coordinator configuration
#
# Durability mode: \"always\" (default) or \"cache\"
#   \"always\" = every commit decision is fsynced before phase two
#   \"cache\"  = in-memory log, in-doubt transactions are lost on crash
durability = \"always\"

# Transaction log file, relative to this directory
log_file = \"txcoord.log\"

# Default transaction timeout in seconds (0 = no timeout)
default_timeout_secs = 0

# Maximum number of in-flight transactions
max_active = 8192

# How often the timeout reaper runs, in milliseconds
reaper_interval_ms = 1000
"

/-- Write the settings file of a new data directory, unless there is one. -/
def writeDefaultIfMissing (path : String) : FileM ConfigFault Unit := do
  unless (← get).isPresent path do
    (FileM.write path (Utf8.encode defaultText)).mapError (.defaultUnwritable path)

end ServiceConfig

end TwoPhaseCommit
