import TwoPhaseCommit.Id

/-!
# Failures of resources
-/

namespace TwoPhaseCommit

/-- A failure that a resource reports. -/
inductive ResourceError
  /-- The requested action was not completed. -/
  | failed (detail : String)
  | unavailable (detail : String)
  /-- The resource rolled back on its own. -/
  | heuristicRollback
  /-- The resource committed on its own. -/
  | heuristicCommit
  /-- Part of the work committed and part rolled back. -/
  | heuristicMixed
deriving DecidableEq

def ResourceError.message : ResourceError → String
  | failed d => "resource failed: " ++ d
  | unavailable d => "resource unavailable: " ++ d
  | heuristicRollback => "resource heuristically rolled back"
  | heuristicCommit => "resource heuristically committed"
  | heuristicMixed => "resource heuristically mixed"

/-- A participant whose outcome diverged from the decision, and what it reported. -/
structure HeuristicFailure where
  resource : ResourceId
  error : ResourceError
deriving DecidableEq

end TwoPhaseCommit
