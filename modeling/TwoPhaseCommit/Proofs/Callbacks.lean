import TwoPhaseCommit.Proofs.Dialogue
import TwoPhaseCommit.Proofs.System

/-!
# Completions and callbacks

Callbacks are called at two places of a completion: some of them before its work, and all of them
after its end. A `Phase` tells how far it has come with them, and `Completion.Heeds` what may be
asked and done in each phase, and to which it leads. `Completion.Attends` says of a part of a
completion that it keeps to this, whatever it is answered and whatever others do. There is one rule
for each way to build a procedure, and one lemma for each procedure.
-/

namespace TwoPhaseCommit

/-- Whether a callback is called. -/
def Question.isCallback : Question → Bool
  | beforeCompletion _ | afterCompletion .. => true
  | _ => false

/-- The callbacks are the same. -/
structure Transaction.Retains (t t' : Transaction) : Prop where
  regular : t'.regular = t.regular
  interposed : t'.interposed = t.interposed

@[refl] lemma Transaction.Retains.refl (t : Transaction) : t.Retains t := ⟨rfl, rfl⟩

lemma Transaction.Retains.trans {t t' t'' : Transaction} (h : t.Retains t') (h' : t'.Retains t'') :
    t.Retains t'' :=
  ⟨h'.regular.trans h.regular, h'.interposed.trans h.interposed⟩

/-- How far a completion has come with the callbacks. -/
inductive Phase
  /-- These are still to be asked. With none left the completion does its work. -/
  | before (callbacks : List Synchronization)
  /-- One that was asked has failed, and the transaction is not marked for it yet. -/
  | balked
  /-- The outcome is final. These are to be told when the transaction is struck from the list. -/
  | finished (outcome : Status) (callbacks : List Synchronization)
  /-- These are still to be told. -/
  | after (outcome : Status) (callbacks : List Synchronization)

namespace Phase

def AtWork (φ : Phase) : Prop := φ = before []

def Through (φ : Phase) : Prop := ∃ outcome, φ = after outcome []

/-- A failure is reported when all is over. -/
def Unless {α : Type} : Except TxError α → Phase → Prop
  | .ok _, φ => φ.AtWork
  | .error _, φ => φ.Through

end Phase

open Phase (AtWork Through Unless)

namespace Completion

variable {α β : Type} {c : Completion} {P : Phase → Prop}

/-! ### Steps -/

/-- A step that leaves the callbacks of the transaction as they are. -/
inductive Minds (c : Completion) (s : System) : System → Prop
  | changes {f : Transaction → Transaction} (hf : ∀ t : Transaction, t.Retains (f t)) :
    Minds c s (s.modifyTx c.tx f)
  | counts : Minds c s (s.modifyStats c.manager fun x => { x with heuristic := x.heuristic + 1 })

/-- What is done with an answer in each phase. -/
inductive Heeds (c : Completion) :
    Phase → (q : Question) → q.Answer → System → System → Phase → Prop
  | agrees {x : Synchronization} {xs : List Synchronization} (s : System) :
    Heeds c (.before (x :: xs)) (.beforeCompletion x) (.ok ()) s s (.before xs)
  | fails {x : Synchronization} {xs : List Synchronization} (e : ResourceError) (s : System) :
    Heeds c (.before (x :: xs)) (.beforeCompletion x) (.error e) s s .balked
  | marks (e : ResourceError) (s : System) :
    Heeds c .balked .turn ()
      s (s.modifyTx c.tx fun t =>
        ((t.markRollbackOnly (.beforeCompletionFailed e)).toOption).getD t) (.before [])
  | works {q : Question} (hq : q.isCallback = false) (a : q.Answer) {s t : System}
      (ht : c.Minds s t) : Heeds c (.before []) q a s t (.before [])
  | finishes (outcome : Status) (s : System) :
    Heeds c (.before []) .turn () s (s.modifyTx c.tx (·.finish outcome))
      (.finished outcome (s.tx c.tx).afterOrder)
  | strikes {outcome : Status} {xs : List Synchronization} (s : System) :
    Heeds c (.finished outcome xs) .turn () s (c.unregister outcome s) (.after outcome xs)
  | tells {outcome : Status} {x : Synchronization} {xs : List Synchronization}
      (a : Except ResourceError Unit) (s : System) :
    Heeds c (.after outcome (x :: xs)) (.afterCompletion x outcome) a s s (.after outcome xs)
  | counts {outcome : Status} (s : System) :
    Heeds c (.after outcome []) .turn () s
      (s.modifyStats c.manager fun x => { x with heuristic := x.heuristic + 1 })
      (.after outcome [])

lemma minds_refl (c : Completion) (s : System) : c.Minds s s := by
  have h : c.Minds s (s.modifyTx c.tx fun t => t) := .changes fun _ => ⟨rfl, rfl⟩
  rwa [System.modifyTx_eq_self rfl] at h

/-! ### Rules -/

/-- From a phase with `P` a part of a completion comes to one with `Q`. -/
structure Attends (c : Completion) (P : Phase → Prop) (x : Proc α) (Q : α → Phase → Prop) :
    Prop where
  still : ∀ s, (x s).system = s
  tracks : ∀ φ s, P φ → (x s).Tracks (fun _ _ => True) c.Heeds (fun a φ _ => Q a φ) φ

lemma attends_pure {a : α} {Q : α → Phase → Prop} (h : ∀ φ, P φ → Q a φ) :
    c.Attends P (pure a) Q :=
  ⟨fun _ => rfl, fun φ _ hφ => h φ hφ⟩

lemma Attends.bind {x : Proc α} {f : α → Proc β} {Q : α → Phase → Prop} {Q' : β → Phase → Prop}
    (hx : c.Attends P x Q) (hf : ∀ a, c.Attends (Q a) (f a) Q') : c.Attends P (x >>= f) Q' where
  still s := (Dialogue.system_bind (fun s a => (hf a).still s) (x s)).trans (hx.still s)
  tracks φ s hφ := (hx.tracks φ s hφ).bind (fun s a => (hf a).still s)
    fun a φ t h => (hf a).tracks φ t h

lemma Attends.andThen {x : Proc α} {y : Proc β} {P' : Phase → Prop} {Q : β → Phase → Prop}
    (hx : c.Attends P x fun _ => P') (hy : c.Attends P' y Q) : c.Attends P (do let _ ← x; y) Q :=
  hx.bind fun _ => hy

lemma Attends.map {x : Proc α} {f : α → β} {Q : β → Phase → Prop}
    (hx : c.Attends P x fun a => Q (f a)) : c.Attends P (f <$> x) Q :=
  hx.bind fun _ => attends_pure fun _ h => h

lemma Attends.discard {x : Proc α} {P' : Phase → Prop} (hx : c.Attends P x fun _ => P') :
    c.Attends P (discard x) fun _ => P' :=
  hx.map (f := fun _ => ())

lemma attends_view (f : System → α) : c.Attends P (Proc.view f) fun _ => P :=
  ⟨fun _ => rfl, fun _ _ h => h⟩

lemma attends_ask {q : Question} (hq : q.isCallback = false) :
    c.Attends AtWork (Proc.ask q) fun _ => AtWork := by
  refine ⟨fun _ => rfl, ?_⟩
  rintro _ s rfl s' a -
  exact ⟨_, .works hq a (minds_refl c s'), rfl⟩

/-- A step of the work. -/
lemma attends_step {f : System → α × System} (hf : ∀ s, c.Minds s (f s).2) :
    c.Attends AtWork (do Proc.turn; Proc.step f) fun _ => AtWork := by
  refine ⟨fun _ => rfl, ?_⟩
  rintro _ s rfl s' a -
  exact ⟨_, .works rfl a (hf s'), rfl⟩

lemma attends_locked {f : Transaction → α × Transaction}
    (hf : ∀ t : Transaction, t.Retains (f t).2) :
    c.Attends AtWork (c.locked f) fun _ => AtWork :=
  attends_step fun _ => .changes hf

lemma attends_update {f : Transaction → Transaction} (hf : ∀ t : Transaction, t.Retains (f t)) :
    c.Attends AtWork (c.update f) fun _ => AtWork :=
  attends_locked (f := fun t => ((), f t)) hf

lemma attends_current : c.Attends AtWork c.current fun _ => AtWork :=
  attends_step (f := fun s => (s.tx c.tx, s)) (minds_refl c)

lemma attends_setStatus (s : Status) : c.Attends AtWork (c.setStatus s) fun _ => AtWork :=
  attends_update fun _ => ⟨rfl, rfl⟩

lemma attends_setResourceStatus (p : Participant) (s : ResourceStatus) :
    c.Attends AtWork (c.setResourceStatus p s) fun _ => AtWork :=
  attends_update fun _ => ⟨rfl, rfl⟩

lemma attends_countHeuristic : c.Attends AtWork c.countHeuristic fun _ => AtWork :=
  attends_step (f := fun _ => ((), _)) fun _ => .counts

lemma attends_countLate : c.Attends Through c.countHeuristic fun _ => Through := by
  refine ⟨fun _ => rfl, ?_⟩
  rintro _ s ⟨outcome, rfl⟩ s' a -
  exact ⟨_, .counts s', outcome, rfl⟩

lemma attends_recordOutcome (d : Decision) (pending : List ResourceId) :
    c.Attends AtWork (c.recordOutcome d pending) fun _ => AtWork :=
  (attends_view _).bind fun _ => (attends_ask rfl).discard

/-! ### The end -/

lemma attends_notify (outcome : Status) (xs : List Synchronization) :
    c.Attends (· = .after outcome xs) (notify outcome xs) fun _ => Through := by
  induction xs with
  | nil => exact attends_pure fun _ h => ⟨outcome, h⟩
  | cons x xs ih =>
    have htell : c.Attends (· = .after outcome (x :: xs)) (Proc.afterCompletion x outcome)
        fun _ φ => φ = .after outcome xs := by
      refine ⟨fun _ => rfl, ?_⟩
      rintro _ s rfl s' a -
      exact ⟨_, .tells a s', rfl⟩
    exact htell.discard.andThen ih

/-- The transaction gets its final status and is struck from the list, and then the callbacks that
it had until then are told. -/
lemma attends_finish (outcome : Status) : c.Attends AtWork (c.finish outcome) fun _ => Through := by
  have hfinish : c.Attends AtWork (c.locked fun t => (t.afterOrder, t.finish outcome))
      fun xs φ => φ = .finished outcome xs := by
    refine ⟨fun _ => rfl, ?_⟩
    rintro _ s rfl s' a -
    exact ⟨_, .finishes outcome s', rfl⟩
  have hstrike : ∀ xs, c.Attends (· = .finished outcome xs)
      (do Proc.turn; Proc.change (c.unregister outcome)) fun _ φ => φ = .after outcome xs := by
    refine fun xs => ⟨fun _ => rfl, ?_⟩
    rintro _ s rfl s' a -
    exact ⟨_, .strikes s', rfl⟩
  exact hfinish.bind fun xs => (hstrike xs).andThen (attends_notify outcome xs)

/-- How most completions end. -/
lemma attends_conclude (d : Decision) (pending : List ResourceId) (outcome : Status) (a : α) :
    c.Attends AtWork (do c.recordOutcome d pending; c.finish outcome; pure a : Proc α)
      fun _ => Through :=
  (attends_recordOutcome d pending).andThen ((attends_finish outcome).andThen
    (attends_pure fun _ h => h))

/-! ### Rolling back -/

lemma attends_tellEach {call : Participant → Proc (Except ResourceError Unit)}
    (hcall : ∀ p, c.Attends AtWork (call p) fun _ => AtWork) (own : ResourceError)
    (reached : ResourceStatus) (ps : List Participant) :
    c.Attends AtWork (c.tellEach call own reached ps) fun _ => AtWork := by
  induction ps with
  | nil => exact attends_pure fun _ h => h
  | cons p ps ih =>
    refine (hcall p).bind fun answer => ?_
    split
    · exact (attends_setResourceStatus p _).andThen ih
    · exact (attends_setResourceStatus p _).andThen ih.map

lemma attends_rollbackEach (ps : List Participant) :
    c.Attends AtWork (c.rollbackEach ps) fun _ => AtWork :=
  attends_tellEach (fun _ => attends_ask rfl) ..

lemma attends_commitEach (ps : List Participant) :
    c.Attends AtWork (c.commitEach ps) fun _ => AtWork :=
  attends_tellEach (fun _ => attends_ask rfl) ..

lemma attends_rollBackAt (targets : List Participant) :
    c.Attends AtWork (c.rollBackAt targets) fun _ => Through :=
  (attends_rollbackEach targets).bind fun _ => attends_conclude _ _ _ _

lemma attends_rollBack (targets : List Participant) :
    c.Attends AtWork (c.rollBack targets) fun _ => Through :=
  (attends_setStatus _).andThen (attends_rollBackAt targets)

lemma attends_rollBackAll : c.Attends AtWork c.rollBackAll fun _ => Through :=
  (attends_locked (f := Transaction.enterRollback) fun _ => ⟨rfl, rfl⟩).bind fun targets =>
    (attends_rollBackAt targets).discard

lemma attends_rollBackMarked : c.Attends AtWork c.rollBackMarked fun _ => Through :=
  attends_current.bind fun _ => attends_rollBackAll.andThen (attends_pure fun _ h => h)

lemma attends_abort (targets : List Participant) (reason : RollbackReason)
    (cause : Option ResourceError) :
    c.Attends AtWork (c.abort targets reason cause) fun _ => Through :=
  (attends_rollBack targets).discard.andThen (attends_pure fun _ h => h)

/-- A commit is given up, and the failure is reported. -/
lemma attends_aborted (targets : List Participant) (reason : RollbackReason)
    (cause : Option ResourceError) :
    c.Attends AtWork (Except.error <$> c.abort targets reason cause : Proc (Except TxError α))
      Unless :=
  (attends_abort targets reason cause).map

/-! ### Committing -/

/-- The callbacks are asked until one fails, for which the transaction is marked. -/
lemma attends_runBefore (xs : List Synchronization) :
    c.Attends (· = .before xs) (c.runBefore xs) fun _ => AtWork := by
  induction xs with
  | nil => exact attends_pure fun _ h => h
  | cons x xs ih =>
    have hask : c.Attends (· = .before (x :: xs)) (Proc.beforeCompletion x)
        fun answer φ => φ = if answer.isOk then .before xs else .balked := by
      refine ⟨fun _ => rfl, ?_⟩
      rintro _ s rfl s' (e | u) -
      · exact ⟨_, .fails e s', rfl⟩
      · exact ⟨_, .agrees s', rfl⟩
    refine hask.bind fun answer => ?_
    cases answer with
    | ok u => exact ih
    | error e =>
      refine ⟨fun _ => rfl, ?_⟩
      rintro _ s rfl s' a -
      exact ⟨_, .marks e s', rfl⟩

lemma attends_commitOnePhase (p : Participant) :
    c.Attends AtWork (c.commitOnePhase p) fun _ => Through := by
  refine (attends_ask rfl).bind fun answer => ?_
  split
  · exact (attends_setResourceStatus p _).andThen (attends_conclude _ _ _ _)
  · exact (attends_setResourceStatus p _).andThen (attends_conclude _ _ _ _)
  · refine (attends_setResourceStatus p _).andThen ((attends_recordOutcome _ _).andThen ?_)
    exact attends_countHeuristic.andThen ((attends_finish _).andThen (attends_pure fun _ h => h))
  · exact (attends_setResourceStatus p _).andThen (attends_conclude _ _ _ _)

lemma attends_collectVotes (lastAgent : Option Participant) (prepared unvoted : List Participant) :
    c.Attends AtWork (c.collectVotes lastAgent prepared unvoted) Unless := by
  induction unvoted generalizing prepared with
  | nil => exact attends_pure fun _ h => h
  | cons p ps ih =>
    refine attends_current.bind fun t => ?_
    split
    · exact attends_aborted _ _ _
    · refine (attends_ask rfl).bind fun answer => ?_
      split
      · exact (attends_setResourceStatus p _).andThen (ih _)
      · exact (attends_setResourceStatus p _).andThen (ih _)
      · exact (attends_setResourceStatus p _).andThen (attends_aborted _ _ _)
      · exact (attends_setResourceStatus p _).andThen (attends_aborted _ _ _)

lemma attends_commitLastAgent (prepared : List Participant) (lastAgent : Option Participant) :
    c.Attends AtWork (c.commitLastAgent prepared lastAgent) Unless := by
  cases lastAgent with
  | none => exact attends_pure fun _ h => h
  | some p =>
    refine (attends_ask rfl).bind fun answer => ?_
    split
    · exact (attends_setResourceStatus p _).andThen (attends_pure fun _ h => h)
    · exact (attends_setResourceStatus p _).andThen (attends_pure fun _ h => h)
    · refine (attends_setResourceStatus p _).andThen ((attends_rollBack prepared).bind fun _ => ?_)
      exact attends_countLate.andThen (attends_pure fun _ h => h)
    · exact (attends_setResourceStatus p _).andThen (attends_aborted _ _ _)

lemma attends_abortUnwritten (prepared : List Participant) (lastAgent : Option Participant)
    (e : StorageError) :
    c.Attends AtWork (c.abortUnwritten prepared lastAgent e) fun _ => Through := by
  refine (attends_rollBack prepared).discard.andThen ?_
  cases lastAgent with
  | some p => exact attends_countLate.andThen (attends_pure fun _ h => h)
  | none => exact attends_pure fun _ h => h

lemma attends_carryOut (lastAgent : Option Participant) (prepared : List Participant) :
    c.Attends AtWork (c.carryOut lastAgent prepared) fun _ => Through := by
  refine (attends_view _).bind fun time => (attends_ask rfl).bind fun answer => ?_
  split
  · exact (attends_abortUnwritten _ _ _).map
  · split
    · exact (attends_finish _).andThen (attends_pure fun _ h => h)
    · refine (attends_setStatus _).andThen ((attends_commitEach prepared).bind fun failures => ?_)
      refine (attends_recordOutcome _ _).andThen ((attends_finish _).andThen ?_)
      split
      · exact attends_pure fun _ h => h
      · exact attends_countLate.andThen (attends_pure fun _ h => h)

lemma retains_enterPrepared (t : Transaction) : t.Retains t.enterPrepared.2 := by
  unfold Transaction.enterPrepared
  split <;> exact ⟨rfl, rfl⟩

lemma retains_enterCommit (t : Transaction) : t.Retains t.enterCommit.2 := by
  unfold Transaction.enterCommit
  split <;> exact ⟨rfl, rfl⟩

lemma attends_commitTwoPhase (ps : List Participant) :
    c.Attends AtWork (c.commitTwoPhase ps) fun _ => Through := by
  refine (attends_collectVotes _ [] _).bind fun votes => ?_
  cases votes with
  | error e => exact attends_pure fun _ h => h
  | ok prepared =>
    refine (attends_locked retains_enterPrepared).bind fun marked => ?_
    split
    · exact (attends_abort _ _ _).map
    · refine (attends_commitLastAgent _ _).bind fun decided => ?_
      cases decided with
      | error e => exact attends_pure fun _ h => h
      | ok u => exact attends_carryOut _ _

lemma attends_commitAll (ps : List Participant) :
    c.Attends AtWork (c.commitAll ps) fun _ => Through := by
  unfold commitAll
  split
  · exact attends_conclude _ _ _ _
  · split
    · exact attends_commitOnePhase _
    · exact attends_commitTwoPhase _
  · exact attends_commitTwoPhase _

/-- A commit that was admitted to an active transaction. -/
lemma attends_commitActive (xs : List Synchronization) :
    c.Attends (· = .before xs) (c.commitActive xs) fun _ => Through := by
  refine (attends_runBefore xs).andThen
    ((attends_locked retains_enterCommit).bind fun entered => ?_)
  split
  · exact attends_rollBackMarked.map
  · exact attends_commitAll _

end Completion

end TwoPhaseCommit
