import TwoPhaseCommit.Duration
import TwoPhaseCommit.Error.System

/-!
# Coordinator settings
-/

namespace TwoPhaseCommit

structure CoordinatorConfig where
  /-- The timeout of transactions that are begun without one; zero for none. -/
  defaultTimeout : Duration := Duration.zero
  maxActive : Nat := 8192
  /-- The time between two runs of the timeout reaper. -/
  reaperInterval : Duration := Duration.ofSeconds 1
deriving DecidableEq

namespace CoordinatorConfig

def testing : CoordinatorConfig := ⟨Duration.zero, 64, Duration.ofMillis 10⟩

def timeout? (c : CoordinatorConfig) : Option Duration :=
  if c.defaultTimeout.isZero then none else some c.defaultTimeout

def validate (c : CoordinatorConfig) : Except CoordinatorConfigError Unit :=
  if c.maxActive = 0 then .error .zeroMaxActive
  else if c.reaperInterval.isZero then .error .zeroReaperInterval
  else .ok ()

end CoordinatorConfig

end TwoPhaseCommit
