import TwoPhaseCommit.Proofs.Recall

/-!
# Completions and ended associations

How the association of a participant was ended is of no account to the completion of a transaction.
From systems of which one may recall more of it than the other (`System.Recalls`) a completion puts
the same questions and comes to the same result: it is `Proc.Unaware`. There is one rule for each
way to build a procedure, and one lemma for each procedure.
-/

namespace TwoPhaseCommit

/-- Two dialogues that put the same questions and come to the same result, whenever they find
systems of which the first recalls what the second does, and are given the same answers. -/
inductive Dialogue.Recalls {α : Type} : Dialogue α → Dialogue α → Prop
  | done {s s' : System} (hs : s.Recalls s') (a : α) : Recalls (.done s a) (.done s' a)
  | ask {s s' : System} {q : Question} {next next' : System → q.Answer → Dialogue α}
      (hs : s.Recalls s') (h : ∀ t t' a, t.Recalls t' → Recalls (next t a) (next' t' a)) :
    Recalls (.ask s q next) (.ask s' q next')

/-- A procedure that does not look at how associations were ended. -/
def Proc.Unaware {α : Type} (x : Proc α) : Prop := ∀ s s', s.Recalls s' → (x s).Recalls (x s')

namespace Dialogue

variable {α β : Type} {d d' : Dialogue α}

lemma Recalls.system (h : d.Recalls d') : d.system.Recalls d'.system := by
  cases h with
  | done hs _ => exact hs
  | ask hs _ => exact hs

lemma Recalls.bind {f : System → α → Dialogue β} (h : d.Recalls d')
    (hf : ∀ s s' a, s.Recalls s' → (f s a).Recalls (f s' a)) :
    (Dialogue.bind f d).Recalls (Dialogue.bind f d') := by
  induction h with
  | done hs a => exact hf _ _ a hs
  | ask hs _ ih => exact .ask hs fun t t' a ht => ih t t' a ht

end Dialogue

namespace Proc

variable {α β : Type} {x : Proc α}

lemma unaware_pure (a : α) : (pure a : Proc α).Unaware := fun _ _ hs => .done hs a

lemma Unaware.bind {f : α → Proc β} (hx : x.Unaware) (hf : ∀ a, (f a).Unaware) :
    (x >>= f).Unaware :=
  fun s s' hs => (hx s s' hs).bind fun t t' a ht => hf a t t' ht

lemma Unaware.andThen {y : Proc β} (hx : x.Unaware) (hy : y.Unaware) :
    (do let _ ← x; y).Unaware :=
  hx.bind fun _ => hy

lemma Unaware.map (hx : x.Unaware) (f : α → β) : (f <$> x).Unaware :=
  hx.bind fun a => unaware_pure (f a)

lemma Unaware.discard (hx : x.Unaware) : (discard x).Unaware := hx.map fun _ => ()

lemma unaware_ask (q : Question) : (ask q).Unaware :=
  fun _ _ hs => .ask hs fun _ _ a ht => .done ht a

lemma unaware_turn : turn.Unaware := unaware_ask .turn

lemma unaware_view {f : System → α} (hf : ∀ s s', s.Recalls s' → f s = f s') :
    (view f).Unaware := by
  intro s s' hs
  rw [view, view, hf s s' hs]
  exact .done hs _

lemma unaware_step {f : System → α × System}
    (hf : ∀ s s', s.Recalls s' → (f s).1 = (f s').1 ∧ (f s).2.Recalls (f s').2) :
    (step f).Unaware := by
  intro s s' hs
  rw [step, step, (hf s s' hs).1]
  exact .done (hf s s' hs).2 _

lemma unaware_change {f : System → System} (hf : ∀ s s', s.Recalls s' → (f s).Recalls (f s')) :
    (change f).Unaware :=
  fun s s' hs => .done (hf s s' hs) ()

end Proc

namespace Completion

open Proc (unaware_pure unaware_ask unaware_turn unaware_view unaware_step unaware_change)

variable {α : Type} (c : Completion)

/-! ### Steps -/

lemma unaware_timestamp : (Proc.view (·.timestamp)).Unaware :=
  unaware_view fun _ _ hs => by rw [System.timestamp, System.timestamp, hs.clock]

/-- A look at what a transaction does not recall. -/
lemma unaware_current {f : Transaction → Proc α}
    (hf : ∀ t t', t.Recalls t' → f t = f t') (hx : ∀ t, (f t).Unaware) :
    (c.current >>= f).Unaware := by
  refine unaware_turn.bind fun _ s s' hs => ?_
  change (f (s.tx c.tx) s).Recalls (f (s'.tx c.tx) s')
  rw [hf _ _ (hs.tx c.tx)]
  exact hx _ s s' hs

lemma unaware_locked {f : Transaction → α × Transaction}
    (hf : ∀ t t', t.Recalls t' → (f t).1 = (f t').1 ∧ (f t).2.Recalls (f t').2) :
    (c.locked f).Unaware :=
  unaware_turn.bind fun _ => unaware_step fun _ _ hs =>
    ⟨(hf _ _ (hs.tx c.tx)).1, hs.modifyTx (hf _ _ (hs.tx c.tx)).2⟩

lemma unaware_update {f : Transaction → Transaction}
    (hf : ∀ t t', t.Recalls t' → (f t).Recalls (f t')) : (c.update f).Unaware :=
  unaware_turn.bind fun _ => unaware_change fun _ _ hs => hs.modifyTx (hf _ _ (hs.tx c.tx))

lemma unaware_setStatus {s : Status} (hs : s ≠ .active) : (c.setStatus s).Unaware :=
  unaware_update c fun _ _ ht => ht.setStatus hs

lemma unaware_setResourceStatus (p : Participant) (s : ResourceStatus) :
    (c.setResourceStatus p s).Unaware :=
  unaware_update c fun _ _ ht => ht.setResourceStatus p.index s

lemma unaware_countHeuristic : c.countHeuristic.Unaware :=
  unaware_turn.bind fun _ => unaware_change fun _ _ hs => hs.modifyManager _ _

lemma unaware_recordOutcome (d : Decision) (pending : List ResourceId) :
    (c.recordOutcome d pending).Unaware :=
  unaware_timestamp.bind fun _ => (unaware_ask _).discard

lemma unaware_notify (outcome : Status) (xs : List Synchronization) :
    (notify outcome xs).Unaware := by
  induction xs with
  | nil => exact unaware_pure ()
  | cons x xs ih => exact (unaware_ask _).discard.andThen ih

lemma unaware_finish {outcome : Status} (ho : outcome ≠ .active) : (c.finish outcome).Unaware := by
  have hfinish : (c.locked fun t => (t.afterOrder, t.finish outcome)).Unaware :=
    unaware_locked c fun _ _ ht => ⟨ht.afterOrder, ht.finish ho⟩
  have hunregister : (Proc.change (c.unregister outcome)).Unaware :=
    unaware_change fun _ _ hs => hs.modifyManager _ _
  exact hfinish.bind fun order => unaware_turn.andThen (hunregister.andThen
    (unaware_notify outcome order))

/-- How most completions end. -/
lemma unaware_conclude (d : Decision) (pending : List ResourceId) {outcome : Status}
    (ho : outcome ≠ .active) (a : α) :
    (do c.recordOutcome d pending; c.finish outcome; pure a : Proc α).Unaware :=
  (unaware_recordOutcome c d pending).andThen ((unaware_finish c ho).andThen (unaware_pure a))

/-! ### Rolling back -/

lemma unaware_tellEach {call : Participant → Proc (Except ResourceError Unit)}
    (hcall : ∀ p, (call p).Unaware) (own : ResourceError) (reached : ResourceStatus)
    (ps : List Participant) : (c.tellEach call own reached ps).Unaware := by
  induction ps with
  | nil => exact unaware_pure []
  | cons p ps ih =>
    refine (hcall p).bind fun answer => ?_
    split
    · exact (unaware_setResourceStatus c p _).andThen ih
    · exact (unaware_setResourceStatus c p _).andThen (ih.map _)

lemma unaware_rollbackEach (ps : List Participant) : (c.rollbackEach ps).Unaware :=
  unaware_tellEach c (fun _ => unaware_ask _) _ _ ps

lemma unaware_commitEach (ps : List Participant) : (c.commitEach ps).Unaware :=
  unaware_tellEach c (fun _ => unaware_ask _) _ _ ps

lemma unaware_rollBackAt (targets : List Participant) : (c.rollBackAt targets).Unaware :=
  (unaware_rollbackEach c targets).bind fun _ => unaware_conclude c _ _ (by decide) _

lemma unaware_rollBack (targets : List Participant) : (c.rollBack targets).Unaware :=
  (unaware_setStatus c (by decide)).andThen (unaware_rollBackAt c targets)

lemma unaware_rollBackAll : c.rollBackAll.Unaware := by
  have henter : (c.locked Transaction.enterRollback).Unaware :=
    unaware_locked c fun _ _ ht => ⟨ht.participants, ht.setStatus (by decide)⟩
  exact henter.bind fun targets => (unaware_rollBackAt c targets).discard

lemma unaware_rollBackMarked : c.rollBackMarked.Unaware := by
  refine unaware_current c (fun _ _ ht => ?_) fun t => ?_
  · dsimp only
    rw [ht.reason]
  · exact (unaware_rollBackAll c).andThen (unaware_pure _)

lemma unaware_abort (targets : List Participant) (reason : RollbackReason)
    (cause : Option ResourceError) : (c.abort targets reason cause).Unaware :=
  (unaware_rollBack c targets).discard.andThen (unaware_pure _)

/-! ### Committing -/

lemma unaware_runBefore (xs : List Synchronization) : (c.runBefore xs).Unaware := by
  induction xs with
  | nil => exact unaware_pure ()
  | cons x xs ih =>
    refine (unaware_ask _).bind fun answer => ?_
    split
    next => exact ih
    next e =>
      refine unaware_update c fun t t' ht => ?_
      have hmark := ht.markRollbackOnly (.beforeCompletionFailed e)
      generalize t.markRollbackOnly _ = y, t'.markRollbackOnly _ = y' at hmark
      cases hmark with
      | error e => exact ht
      | ok hu => exact hu

lemma unaware_commitOnePhase (p : Participant) : (c.commitOnePhase p).Unaware := by
  refine (unaware_ask _).bind fun answer => ?_
  split
  · exact (unaware_setResourceStatus c p _).andThen (unaware_conclude c _ _ (by decide) _)
  · exact (unaware_setResourceStatus c p _).andThen (unaware_conclude c _ _ (by decide) _)
  · refine (unaware_setResourceStatus c p _).andThen ((unaware_recordOutcome c _ _).andThen ?_)
    exact (unaware_countHeuristic c).andThen
      ((unaware_finish c (by decide)).andThen (unaware_pure _))
  · exact (unaware_setResourceStatus c p _).andThen (unaware_conclude c _ _ (by decide) _)

lemma unaware_collectVotes (lastAgent : Option Participant) (prepared unvoted : List Participant) :
    (c.collectVotes lastAgent prepared unvoted).Unaware := by
  induction unvoted generalizing prepared with
  | nil => exact unaware_pure _
  | cons p ps ih =>
    refine unaware_current c (fun _ _ ht => ?_) fun t => ?_
    · rw [ht.markedReason]
    · split
      · exact (unaware_abort c _ _ _).map _
      · refine (unaware_ask _).bind fun answer => ?_
        split
        · exact (unaware_setResourceStatus c p _).andThen (ih _)
        · exact (unaware_setResourceStatus c p _).andThen (ih _)
        · exact (unaware_setResourceStatus c p _).andThen ((unaware_abort c _ _ _).map _)
        · exact (unaware_setResourceStatus c p _).andThen ((unaware_abort c _ _ _).map _)

lemma unaware_commitLastAgent (prepared : List Participant) (lastAgent : Option Participant) :
    (c.commitLastAgent prepared lastAgent).Unaware := by
  cases lastAgent with
  | none => exact unaware_pure _
  | some p =>
    refine (unaware_ask _).bind fun answer => ?_
    split
    · exact (unaware_setResourceStatus c p _).andThen (unaware_pure _)
    · exact (unaware_setResourceStatus c p _).andThen (unaware_pure _)
    · refine (unaware_setResourceStatus c p _).andThen ?_
      refine (unaware_rollBack c prepared).bind fun failures => ?_
      exact (unaware_countHeuristic c).andThen (unaware_pure _)
    · exact (unaware_setResourceStatus c p _).andThen ((unaware_abort c _ _ _).map _)

lemma unaware_abortUnwritten (prepared : List Participant) (lastAgent : Option Participant)
    (e : StorageError) : (c.abortUnwritten prepared lastAgent e).Unaware := by
  refine (unaware_rollBack c prepared).discard.andThen ?_
  cases lastAgent with
  | some p => exact (unaware_countHeuristic c).andThen (unaware_pure _)
  | none => exact unaware_pure _

lemma unaware_carryOut (lastAgent : Option Participant) (prepared : List Participant) :
    (c.carryOut lastAgent prepared).Unaware := by
  refine unaware_timestamp.bind fun time => (unaware_ask _).bind fun answer => ?_
  split
  · exact (unaware_abortUnwritten c _ _ _).map _
  · split
    · exact (unaware_finish c (by decide)).andThen (unaware_pure _)
    · refine (unaware_setStatus c (by decide)).andThen ?_
      refine (unaware_commitEach c prepared).bind fun failures => ?_
      refine (unaware_recordOutcome c _ _).andThen ((unaware_finish c (by decide)).andThen ?_)
      split
      · exact unaware_pure _
      · exact (unaware_countHeuristic c).andThen (unaware_pure _)

lemma unaware_commitTwoPhase (ps : List Participant) : (c.commitTwoPhase ps).Unaware := by
  refine (unaware_collectVotes c _ [] _).bind fun votes => ?_
  split
  · exact unaware_pure _
  · have henter : (c.locked Transaction.enterPrepared).Unaware :=
      unaware_locked c fun _ _ ht => ht.enterPrepared
    refine henter.bind fun marked => ?_
    split
    · exact (unaware_abort c _ _ _).map _
    · refine (unaware_commitLastAgent c _ _).bind fun decided => ?_
      split
      · exact unaware_pure _
      · exact unaware_carryOut c _ _

lemma unaware_commitAll (ps : List Participant) : (c.commitAll ps).Unaware := by
  unfold commitAll
  split
  · exact unaware_conclude c _ _ (by decide) _
  · split
    · exact unaware_commitOnePhase c _
    · exact unaware_commitTwoPhase c _
  · exact unaware_commitTwoPhase c _

lemma unaware_commitActive (xs : List Synchronization) : (c.commitActive xs).Unaware := by
  have henter : (c.locked Transaction.enterCommit).Unaware :=
    unaware_locked c fun _ _ ht => ht.enterCommit
  refine (unaware_runBefore c xs).andThen (henter.bind fun entered => ?_)
  split
  · exact (unaware_rollBackMarked c).map _
  · exact unaware_commitAll c _

lemma unaware_commit : c.commit.Unaware := by
  have hadmit : (c.locked Transaction.admitCommit).Unaware :=
    unaware_locked c fun _ _ ht => ht.admitCommit
  refine hadmit.bind fun admission => ?_
  split
  · exact unaware_pure _
  · exact (unaware_rollBackMarked c).map _
  · exact unaware_commitActive c _

lemma unaware_rollback : c.rollback.Unaware := by
  have hadmit : (c.locked Transaction.admitRollback).Unaware :=
    unaware_locked c fun _ _ ht => ht.admitRollback
  refine hadmit.bind fun refused => ?_
  split
  · exact unaware_pure _
  · exact (unaware_rollBackAll c).andThen (unaware_pure _)

end Completion

/-! ### Requests -/

lemma System.Recalls.completion {s s' : System} (h : s.Recalls s') (m : ManagerRef) (r : TxRef) :
    Completion.of m r s = Completion.of m r s' := by
  rw [Completion.of, Completion.of, (h.tx r).id, h.manager]

/-- A completion of a transaction, from its request on. -/
lemma unaware_proc (how : Ending) (m : ManagerRef) (r : TxRef) : (how.proc m r).Unaware := by
  cases how with
  | commit =>
    have hexpire : (Proc.change fun s => (s.expireIfDue m r).2).Unaware :=
      Proc.unaware_change fun _ _ hs => hs.expireIfDue m r
    have hview : (Proc.view (Completion.of m r)).Unaware :=
      Proc.unaware_view fun _ _ hs => hs.completion m r
    exact Proc.unaware_turn.andThen (hexpire.andThen (hview.bind Completion.unaware_commit))
  | rollback =>
    have hview : (Proc.view (Completion.of m r)).Unaware :=
      Proc.unaware_view fun _ _ hs => hs.completion m r
    exact hview.bind fun c => Completion.unaware_rollback c

end TwoPhaseCommit
