import TwoPhaseCommit.Scenario.Script

/-!
# Actors

The adapters and callbacks of a script. They answer as they are told to and remember what they were
asked. The first time one is called it can take steps of the script from within the call.
-/

namespace TwoPhaseCommit.Scenario

/-- The calls from within which steps can be taken. -/
inductive HookPoint
  | prepare
  | commit
  | rollback
  | before
  | after
deriving DecidableEq

namespace HookPoint

def name : HookPoint → String
  | prepare => "prepare"
  | commit => "commit"
  | rollback => "rollback"
  | before => "before"
  | after => "after"

def all : List HookPoint := [prepare, commit, rollback, before, after]

end HookPoint

/-- Steps to take from within the first call of each kind, each with its word. -/
abbrev Hooks := List (HookPoint × List (String × Action))

namespace Hooks

/-- The steps for a call, which are then used up. -/
def take (h : Hooks) (p : HookPoint) : List (String × Action) × Hooks :=
  ((h.lookup p).getD [], h.filter (·.1 ≠ p))

end Hooks

/-! ### Adapters -/

/-- An adapter of a script. -/
structure Actor where
  handle : String
  adapter : Adapter
  /-- Whether it agrees to everything, remembers nothing and is not recorded. -/
  bare : Bool := false
  vote : Except ResourceError Vote := .ok .commit
  commitFailure : Option ResourceError := none
  rollbackFailure : Option ResourceError := none
  /-- What it reports as in doubt, by name or id, if not what is. -/
  reports : Option (Except ResourceError (List String)) := none
  hooks : Hooks := []
  committed : List TxId := []
  rolledBack : List TxId := []
  inDoubt : List TxId := []

namespace Actor

/-- Add an element to a list that holds each once. -/
def add (tx : TxId) (txs : List TxId) : List TxId := if tx ∈ txs then txs else tx :: txs

/-- Vote. What is ready to commit is in doubt from then on. -/
def prepare (x : Actor) (tx : TxId) : Except ResourceError Vote × Actor :=
  match x.vote with
  | .ok .commit => (x.vote, { x with inDoubt := add tx x.inDoubt })
  | _ => (x.vote, x)

def commit (x : Actor) (tx : TxId) : Except ResourceError Unit × Actor :=
  match x.commitFailure with
  | some e => (.error e, x)
  | none => (.ok (), { x with inDoubt := x.inDoubt.erase tx, committed := add tx x.committed })

def rollback (x : Actor) (tx : TxId) : Except ResourceError Unit × Actor :=
  match x.rollbackFailure with
  | some e => (.error e, x)
  | none => (.ok (), { x with inDoubt := x.inDoubt.erase tx, rolledBack := add tx x.rolledBack })

def takeHooks (x : Actor) (p : HookPoint) : List (String × Action) × Actor :=
  let (steps, hooks) := x.hooks.take p
  (steps, { x with hooks })

end Actor

/-! ### Callbacks -/

/-- A callback of a script. -/
structure Listener where
  handle : String
  beforeFailure : Option ResourceError := none
  afterFailure : Option ResourceError := none
  hooks : Hooks := []
  /-- The outcomes that it was told. -/
  outcomes : List Status := []

namespace Listener

/-- The answer of a callback that may be told to fail. -/
def answer : Option ResourceError → Except ResourceError Unit
  | none => .ok ()
  | some e => .error e

def takeHooks (x : Listener) (p : HookPoint) : List (String × Action) × Listener :=
  let (steps, hooks) := x.hooks.take p
  (steps, { x with hooks })

end Listener

end TwoPhaseCommit.Scenario
