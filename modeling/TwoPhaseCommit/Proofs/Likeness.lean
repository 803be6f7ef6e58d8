import TwoPhaseCommit.Proofs.Renaming
import TwoPhaseCommit.Proofs.System

/-!
# Likeness

Two systems are alike for two of their transactions if these differ in their names only, and the
managers agree in what a completion has to do with: where they log, and whether they list the
transaction (`System.Alike`). Two dialogues are alike if they put like questions and go on alike,
whenever like systems and the same answers are found; so are two procedures that lead like systems
to like dialogues (`Proc.Alike`).

There is one rule for each way to build a procedure, and one lemma for each procedure of a
completion. The last of them say that a completion goes by nothing but what is alike.
-/

namespace TwoPhaseCommit

/-! ### Systems -/

/-- For a transaction `r` of the one and `q` of the other, managers do not differ. -/
structure Manager.Level (r q : TxRef) (x y : Manager) : Prop where
  config : y.config = x.config
  log : y.log = x.log
  count : y.registered.count q = x.registered.count r

/-- What surrounds transactions does not differ for `r` and `q`. -/
structure System.Level (r q : TxRef) (s t : System) : Prop where
  clock : t.clock = s.clock
  seed : t.seed = s.seed
  nextTask : t.nextTask = s.nextTask
  size : t.managers.size = s.managers.size
  manager : ∀ m, (s.manager m).Level r q (t.manager m)

/-- The transaction `r` of the one system is the transaction `q` of the other under the name
`id`. -/
structure System.Alike (id : TxId) (r q : TxRef) (s t : System) : Prop extends
    System.Level r q s t where
  left : r < s.transactions.size
  right : q < t.transactions.size
  tx : s.tx r = (t.tx q).named id

namespace System

variable {id : TxId} {r q : TxRef} {s t : System} {m : ManagerRef}

lemma Alike.id_eq (h : Alike id r q s t) : (s.tx r).id = id := by
  rw [h.tx]
  rfl

lemma Alike.of_level {s' t' : System} (h : Alike id r q s t) (hl : Level r q s' t')
    (hs : s'.transactions = s.transactions) (ht : t'.transactions = t.transactions) :
    Alike id r q s' t' where
  toLevel := hl
  left := hs ▸ h.left
  right := ht ▸ h.right
  tx := by
    rw [System.tx, hs, System.tx, ht]
    exact h.tx

/-- The same manager changes in both. -/
lemma Level.modifyManager {f g : Manager → Manager} (h : Level r q s t)
    (hf : (f (s.manager m)).Level r q (g (t.manager m))) :
    Level r q (s.modifyManager m f) (t.modifyManager m g) := by
  refine ⟨h.clock, h.seed, h.nextTask, ?_, fun k => ?_⟩
  · simpa [System.modifyManager] using h.size
  · rw [manager_modifyManager, manager_modifyManager, h.size]
    split
    next hk =>
      rw [hk.1]
      exact hf
    next => exact h.manager k

/-- What managers count is of no account. -/
lemma Alike.modifyStats (h : Alike id r q s t) (m : ManagerRef) (f g : Stats → Stats) :
    Alike id r q (s.modifyStats m f) (t.modifyStats m g) :=
  have hm := h.manager m
  h.of_level (h.toLevel.modifyManager ⟨hm.config, hm.log, hm.count⟩) rfl rfl

/-- What was found alike and is changed alike is alike. -/
lemma Alike.modifyTx {f g : Transaction → Transaction} (h : Alike id r q s t)
    (hf : ∀ x : Transaction, f (x.named id) = (g x).named id) :
    Alike id r q (s.modifyTx r f) (t.modifyTx q g) where
  toLevel := ⟨h.clock, h.seed, h.nextTask, h.size, h.manager⟩
  left := by
    rw [size_modifyTx]
    exact h.left
  right := by
    rw [size_modifyTx]
    exact h.right
  tx := by rw [tx_modifyTx_self f h.left, tx_modifyTx_self g h.right, h.tx, hf]

lemma isDue_named (x : Transaction) (now : Nat) : (x.named id).isDue now = x.isDue now := rfl

lemma Alike.expireIfDue (h : Alike id r q s t) (m : ManagerRef) :
    Alike id r q (s.expireIfDue m r).2 (t.expireIfDue m q).2 := by
  unfold System.expireIfDue
  rw [h.tx, isDue_named, h.clock]
  by_cases hd : (t.tx q).isDue s.clock
  · rw [if_pos hd, if_pos hd]
    have hx : Alike id r q (s.modifyTx r Transaction.expire) (t.modifyTx q Transaction.expire) :=
      h.modifyTx fun x => x.expire_named
    dsimp only
    exact hx.modifyStats m _ _
  · rw [if_neg hd, if_neg hd]
    exact h

end System

/-! ### Dialogues -/

/-- Two dialogues that go on alike as long as they find systems alike and are given the same
answers, and end with `Q`. -/
inductive Dialogue.Alike {α β : Type} (id : TxId) (r q : TxRef) (Q : α → β → Prop) :
    Dialogue α → Dialogue β → Prop
  | done {s t : System} {a : α} {b : β} (hs : System.Alike id r q s t) (ha : Q a b) :
    Alike id r q Q (.done s a) (.done t b)
  | ask {s t : System} {p : Question} {next : System → (p.named id).Answer → Dialogue α}
      {next' : System → p.Answer → Dialogue β} (hs : System.Alike id r q s t)
      (h : ∀ s' t' a b, System.Alike id r q s' t' → (p.named id).reply a = p.reply b →
        Alike id r q Q (next s' a) (next' t' b)) :
    Alike id r q Q (.ask s (p.named id) next) (.ask t p next')

namespace Dialogue

variable {α β γ δ : Type} {id : TxId} {r q : TxRef} {Q : α → β → Prop} {Q' : γ → δ → Prop}
  {d : Dialogue α} {e : Dialogue β}

lemma Alike.system (h : d.Alike id r q Q e) : System.Alike id r q d.system e.system := by
  cases h with
  | done hs _ => exact hs
  | ask hs _ => exact hs

lemma Alike.bind {f : System → α → Dialogue γ} {g : System → β → Dialogue δ}
    (h : d.Alike id r q Q e)
    (hf : ∀ s t a b, System.Alike id r q s t → Q a b → (f s a).Alike id r q Q' (g t b)) :
    (Dialogue.bind f d).Alike id r q Q' (Dialogue.bind g e) := by
  induction h with
  | done hs ha => exact hf _ _ _ _ hs ha
  | ask hs _ ih => exact .ask hs fun s' t' a b hs' hab => ih s' t' a b hs' hab

end Dialogue

/-! ### Procedures -/

/-- From systems alike, two procedures lead to dialogues alike. -/
def Proc.Alike {α β : Type} (id : TxId) (r q : TxRef) (Q : α → β → Prop) (x : Proc α)
    (y : Proc β) : Prop :=
  ∀ s t, System.Alike id r q s t → (x s).Alike id r q Q (y t)

namespace Proc

variable {α β γ δ : Type} {id : TxId} {r q : TxRef} {Q : α → β → Prop} {Q' : γ → δ → Prop}
  {x : Proc α} {y : Proc β}

lemma alike_pure {a : α} {b : β} (h : Q a b) : Alike id r q Q (pure a) (pure b) :=
  fun _ _ hs => .done hs h

lemma Alike.bind {f : α → Proc γ} {g : β → Proc δ} (h : Alike id r q Q x y)
    (hf : ∀ a b, Q a b → Alike id r q Q' (f a) (g b)) : Alike id r q Q' (x >>= f) (y >>= g) :=
  fun s t hs => (h s t hs).bind fun s' t' a b hs' hab => hf a b hab s' t' hs'

/-- What goes on from the same result. -/
lemma Alike.seq {y : Proc α} {f : α → Proc γ} {g : α → Proc δ} (h : Alike id r q Eq x y)
    (hf : ∀ a, Alike id r q Q' (f a) (g a)) : Alike id r q Q' (x >>= f) (y >>= g) :=
  h.bind fun a _ hab => hab ▸ hf a

lemma Alike.map {f : α → γ} {g : β → δ} (h : Alike id r q Q x y)
    (hf : ∀ a b, Q a b → Q' (f a) (g b)) : Alike id r q Q' (f <$> x) (g <$> y) :=
  h.bind fun a b hab => alike_pure (hf a b hab)

lemma Alike.discard (h : Alike id r q Q x y) : Alike id r q Eq (discard x) (discard y) :=
  h.map (f := fun _ => ()) (g := fun _ => ()) fun _ _ _ => rfl

lemma alike_view {f : System → α} {g : System → β}
    (h : ∀ s t, System.Alike id r q s t → Q (f s) (g t)) : Alike id r q Q (view f) (view g) :=
  fun s t hs => .done hs (h s t hs)

lemma alike_step {f : System → α × System} {g : System → β × System}
    (h : ∀ s t, System.Alike id r q s t →
      Q (f s).1 (g t).1 ∧ System.Alike id r q (f s).2 (g t).2) :
    Alike id r q Q (step f) (step g) :=
  fun s t hs => .done (h s t hs).2 (h s t hs).1

lemma alike_change {f g : System → System}
    (h : ∀ s t, System.Alike id r q s t → System.Alike id r q (f s) (g t)) :
    Alike id r q Eq (change f) (change g) :=
  alike_step (f := fun s => ((), f s)) (g := fun s => ((), g s)) fun s t hs => ⟨rfl, h s t hs⟩

lemma alike_ask {p : Question} {Q : (p.named id).Answer → p.Answer → Prop}
    (h : ∀ a b, (p.named id).reply a = p.reply b → Q a b) :
    Alike id r q Q (ask (p.named id)) (ask p) :=
  fun _ _ hs => .ask hs fun _ _ a b hs' hab => .done hs' (h a b hab)

end Proc

/-! ### Completions -/

namespace Completion

/-- The completion of another transaction. -/
def elsewhere (c : Completion) (q : TxRef) (own : TxId) : Completion :=
  { c with tx := q, id := own }

open Proc (alike_pure alike_view alike_step alike_change alike_ask)

variable {α β : Type} (c : Completion) {q : TxRef} {own : TxId}

/-- What a completion does is like what the completion of a transaction alike does. -/
abbrev Likens (q : TxRef) (Q : α → β → Prop) : Proc α → Proc β → Prop := Proc.Alike c.id c.tx q Q

/-- What is asked is answered the same. -/
lemma likens_turn : c.Likens q Eq Proc.turn Proc.turn :=
  alike_ask (p := .turn) fun _ _ _ => rfl

lemma likens_prepare (k : AdapterKey) :
    c.Likens q Eq (Proc.prepare k c.id) (Proc.prepare k own) :=
  alike_ask (p := .prepare k own) fun _ _ h => Reply.vote.inj h

lemma likens_commitAt (k : AdapterKey) (onePhase : Bool) :
    c.Likens q Eq (Proc.commitAt k c.id onePhase) (Proc.commitAt k own onePhase) :=
  alike_ask (p := .commit k own onePhase) fun _ _ h => Reply.done.inj h

lemma likens_rollbackAt (k : AdapterKey) :
    c.Likens q Eq (Proc.rollbackAt k c.id) (Proc.rollbackAt k own) :=
  alike_ask (p := .rollback k own) fun _ _ h => Reply.done.inj h

lemma likens_append (log : LogRef) (r : LogRecord) :
    c.Likens q Eq (Proc.append log (r.named c.id)) (Proc.append log r) :=
  alike_ask (p := .append log r) fun _ _ h => Reply.written.inj h

lemma likens_beforeCompletion (x : Synchronization) :
    c.Likens q Eq (Proc.beforeCompletion x) (Proc.beforeCompletion x) :=
  alike_ask (p := .beforeCompletion x) fun _ _ h => Reply.done.inj h

lemma likens_afterCompletion (x : Synchronization) (s : Status) :
    c.Likens q Eq (Proc.afterCompletion x s) (Proc.afterCompletion x s) :=
  alike_ask (p := .afterCompletion x s) fun _ _ h => Reply.done.inj h

/-! #### Steps -/

lemma likens_timestamp : c.Likens q Eq (Proc.view (·.timestamp)) (Proc.view (·.timestamp)) :=
  alike_view fun _ _ h => by rw [System.timestamp, System.timestamp, h.clock]

lemma likens_current :
    c.Likens q (fun x y => x = y.named c.id) c.current (c.elsewhere q own).current :=
  (likens_turn c).seq fun _ => alike_view fun _ _ h => h.tx

lemma likens_locked {f : Transaction → α × Transaction} {g : Transaction → β × Transaction}
    {Q : α → β → Prop}
    (h : ∀ x : Transaction,
      Q (f (x.named c.id)).1 (g x).1 ∧ (f (x.named c.id)).2 = (g x).2.named c.id) :
    c.Likens q Q (c.locked f) ((c.elsewhere q own).locked g) :=
  (likens_turn c).seq fun _ => alike_step fun _ t hs =>
    ⟨hs.tx ▸ (h (t.tx q)).1, hs.modifyTx fun x => (h x).2⟩

lemma likens_update {f g : Transaction → Transaction}
    (h : ∀ x : Transaction, f (x.named c.id) = (g x).named c.id) :
    c.Likens q Eq (c.update f) ((c.elsewhere q own).update g) :=
  likens_locked c (f := fun x => ((), f x)) (g := fun x => ((), g x)) fun x => ⟨rfl, h x⟩

lemma likens_setStatus (s : Status) :
    c.Likens q Eq (c.setStatus s) ((c.elsewhere q own).setStatus s) :=
  likens_update c fun _ => rfl

lemma likens_setResourceStatus (p : Participant) (s : ResourceStatus) :
    c.Likens q Eq (c.setResourceStatus p s) ((c.elsewhere q own).setResourceStatus p s) :=
  likens_update c fun _ => rfl

lemma likens_countHeuristic :
    c.Likens q Eq c.countHeuristic (c.elsewhere q own).countHeuristic :=
  (likens_turn c).seq fun _ => alike_change fun _ _ hs => hs.modifyStats _ _ _

lemma likens_recordOutcome (d : Decision) (pending : List ResourceId) :
    c.Likens q Eq (c.recordOutcome d pending) ((c.elsewhere q own).recordOutcome d pending) :=
  (likens_timestamp c).seq fun time => (likens_append c c.log ⟨own, d, pending, time⟩).discard

lemma likens_notify (outcome : Status) (xs : List Synchronization) :
    c.Likens q Eq (notify outcome xs) (notify outcome xs) := by
  induction xs with
  | nil => exact alike_pure rfl
  | cons x xs ih => exact (likens_afterCompletion c x outcome).discard.seq fun _ => ih

/-- Each strikes its own transaction from its own list. -/
lemma alike_unregister {c d : Completion} (hd : d.manager = c.manager) {id : TxId} {s t : System}
    (h : System.Alike id c.tx d.tx s t) (outcome : Status) :
    System.Alike id c.tx d.tx (c.unregister outcome s) (d.unregister outcome t) := by
  have hm := h.manager c.manager
  have hmem : d.tx ∈ (t.manager c.manager).registered ↔
      c.tx ∈ (s.manager c.manager).registered := by
    rw [← List.count_pos_iff, ← List.count_pos_iff, hm.count]
  unfold unregister
  rw [hd]
  refine h.of_level (h.toLevel.modifyManager ?_) rfl rfl
  by_cases hc : c.tx ∈ (s.manager c.manager).registered
  · rw [if_pos hc, if_pos (hmem.mpr hc)]
    refine ⟨hm.config, hm.log, ?_⟩
    dsimp only
    rw [List.count_erase_self, List.count_erase_self, hm.count]
  · rw [if_neg hc, if_neg fun hq => hc (hmem.mp hq)]
    exact hm

lemma likens_finish (outcome : Status) :
    c.Likens q Eq (c.finish outcome) ((c.elsewhere q own).finish outcome) := by
  have hfinish : c.Likens q Eq (c.locked fun t => (t.afterOrder, t.finish outcome))
      ((c.elsewhere q own).locked fun t => (t.afterOrder, t.finish outcome)) :=
    likens_locked c fun _ => ⟨rfl, rfl⟩
  have hstrike : c.Likens q Eq (Proc.change (c.unregister outcome))
      (Proc.change ((c.elsewhere q own).unregister outcome)) :=
    alike_change fun _ _ hs =>
      alike_unregister (c := c) (d := c.elsewhere q own) rfl hs outcome
  exact hfinish.seq fun order => (likens_turn c).seq fun _ =>
    hstrike.seq fun _ => likens_notify c outcome order

/-! #### Rolling back -/

lemma likens_tellEach {call call' : Participant → Proc (Except ResourceError Unit)}
    (hcall : ∀ p, c.Likens q Eq (call p) (call' p)) (e : ResourceError) (reached : ResourceStatus)
    (ps : List Participant) :
    c.Likens q Eq (c.tellEach call e reached ps)
      ((c.elsewhere q own).tellEach call' e reached ps) := by
  induction ps with
  | nil => exact alike_pure rfl
  | cons p ps ih =>
    refine (hcall p).seq fun answer => ?_
    cases failure? e answer with
    | none => exact (likens_setResourceStatus c p _).seq fun _ => ih
    | some e =>
      exact (likens_setResourceStatus c p _).seq fun _ => ih.seq fun fs => alike_pure rfl

lemma likens_rollbackEach (ps : List Participant) :
    c.Likens q Eq (c.rollbackEach ps) ((c.elsewhere q own).rollbackEach ps) := by
  have hcall : ∀ p : Participant, c.Likens q Eq (Proc.rollbackAt p.adapter c.id)
      (Proc.rollbackAt p.adapter own) := fun p => likens_rollbackAt c p.adapter
  exact likens_tellEach c hcall _ _ ps

lemma likens_commitEach (ps : List Participant) :
    c.Likens q Eq (c.commitEach ps) ((c.elsewhere q own).commitEach ps) := by
  have hcall : ∀ p : Participant, c.Likens q Eq (Proc.commitAt p.adapter c.id false)
      (Proc.commitAt p.adapter own false) := fun p => likens_commitAt c p.adapter false
  exact likens_tellEach c hcall _ _ ps

lemma likens_rollBackAt (targets : List Participant) :
    c.Likens q Eq (c.rollBackAt targets) ((c.elsewhere q own).rollBackAt targets) :=
  (likens_rollbackEach c targets).seq fun _ =>
    (likens_recordOutcome c .rolledBack _).seq fun _ =>
      (likens_finish c .rolledBack).seq fun _ => alike_pure rfl

lemma likens_rollBack (targets : List Participant) :
    c.Likens q Eq (c.rollBack targets) ((c.elsewhere q own).rollBack targets) :=
  (likens_setStatus c .rollingBack).seq fun _ => likens_rollBackAt c targets

lemma likens_rollBackAll : c.Likens q Eq c.rollBackAll (c.elsewhere q own).rollBackAll := by
  have henter : c.Likens q Eq (c.locked Transaction.enterRollback)
      ((c.elsewhere q own).locked Transaction.enterRollback) :=
    likens_locked c fun _ => ⟨rfl, rfl⟩
  exact henter.seq fun targets => (likens_rollBackAt c targets).discard

lemma likens_rollBackMarked :
    c.Likens q (fun e e' => e = e'.named c.id) c.rollBackMarked
      (c.elsewhere q own).rollBackMarked :=
  (likens_current c).bind fun _ _ hx => (likens_rollBackAll c).seq fun _ =>
    alike_pure (by rw [hx]; rfl)

lemma likens_abort (targets : List Participant) (reason : RollbackReason)
    (cause : Option ResourceError) :
    c.Likens q (fun e e' => e = e'.named c.id) (c.abort targets reason cause)
      ((c.elsewhere q own).abort targets reason cause) :=
  (likens_rollBack c targets).discard.seq fun _ => alike_pure rfl

/-! #### Committing -/

lemma likens_runBefore (xs : List Synchronization) :
    c.Likens q Eq (c.runBefore xs) ((c.elsewhere q own).runBefore xs) := by
  induction xs with
  | nil => exact alike_pure rfl
  | cons x xs ih =>
    refine (likens_beforeCompletion c x).seq fun answer => ?_
    rcases answer with e | ⟨⟩
    · refine likens_update c fun t => ?_
      rw [t.markRollbackOnly_named]
      cases t.markRollbackOnly (.beforeCompletionFailed e) <;> rfl
    · exact ih

/-- The same result, but for the name of the transaction that an error tells of. -/
def Renames {α : Type} (id : TxId) (x y : Except TxError α) : Prop :=
  x = y.mapError (TxError.named id)

lemma likens_commitOnePhase (p : Participant) :
    c.Likens q (Renames c.id) (c.commitOnePhase p) ((c.elsewhere q own).commitOnePhase p) := by
  unfold commitOnePhase
  have hcommitted : c.Likens q (Renames c.id)
      (do c.setResourceStatus p .committed; c.recordOutcome .committed []; c.finish .committed
          return .ok ())
      (do (c.elsewhere q own).setResourceStatus p .committed
          (c.elsewhere q own).recordOutcome .committed []
          (c.elsewhere q own).finish .committed
          return .ok ()) :=
    (likens_setResourceStatus c p _).seq fun _ => (likens_recordOutcome c _ _).seq fun _ =>
      (likens_finish c _).seq fun _ => alike_pure rfl
  have hfailed : ∀ e : ResourceError, c.Likens q (Renames (α := Unit) c.id)
      (do c.setResourceStatus p .failed; c.recordOutcome .rolledBack []; c.finish .rolledBack
          return .error (.rollback c.id (.onePhaseFailed p.id) (some e)))
      (do (c.elsewhere q own).setResourceStatus p .failed
          (c.elsewhere q own).recordOutcome .rolledBack []
          (c.elsewhere q own).finish .rolledBack
          return .error (.rollback own (.onePhaseFailed p.id) (some e))) :=
    fun e => (likens_setResourceStatus c p _).seq fun _ => (likens_recordOutcome c _ _).seq fun _ =>
      (likens_finish c _).seq fun _ => alike_pure rfl
  refine (likens_commitAt c p.adapter true).seq fun answer => ?_
  -- the two programs receive the same answer, and so they take the same branch
  rcases answer with e | ⟨⟩
  · cases e with
    | heuristicCommit => exact hcommitted
    | heuristicMixed =>
      exact (likens_setResourceStatus c p _).seq fun _ => (likens_recordOutcome c _ _).seq fun _ =>
        (likens_countHeuristic c).seq fun _ => (likens_finish c _).seq fun _ => alike_pure rfl
    | _ => exact hfailed _
  · exact hcommitted

/-- A commit that is given up. -/
lemma likens_aborted {α : Type} (targets : List Participant) (reason : RollbackReason)
    (cause : Option ResourceError) :
    c.Likens q (Renames (α := α) c.id) (Except.error <$> c.abort targets reason cause)
      (Except.error <$> (c.elsewhere q own).abort targets reason cause) :=
  (likens_abort c targets reason cause).map fun _ _ h => congrArg Except.error h

lemma likens_collectVotes (lastAgent : Option Participant) (prepared unvoted : List Participant) :
    c.Likens q (Renames c.id) (c.collectVotes lastAgent prepared unvoted)
      ((c.elsewhere q own).collectVotes lastAgent prepared unvoted) := by
  induction unvoted generalizing prepared with
  | nil => exact alike_pure rfl
  | cons p ps ih =>
    unfold collectVotes
    refine (likens_current c).bind fun x y hxy => ?_
    have hreason : x.markedReason = y.markedReason := by
      rw [hxy]
      rfl
    rw [hreason]
    cases y.markedReason with
    | some reason => exact likens_aborted c _ _ _
    | none =>
      refine (likens_prepare c p.adapter).seq fun answer => ?_
      rcases answer with e | vote
      · exact (likens_setResourceStatus c p _).seq fun _ => likens_aborted c _ _ _
      · cases vote with
        | commit => exact (likens_setResourceStatus c p _).seq fun _ => ih _
        | readOnly => exact (likens_setResourceStatus c p _).seq fun _ => ih _
        | rollback =>
          exact (likens_setResourceStatus c p _).seq fun _ => likens_aborted c _ _ _

lemma likens_commitLastAgent (prepared : List Participant) (lastAgent : Option Participant) :
    c.Likens q (Renames c.id) (c.commitLastAgent prepared lastAgent)
      ((c.elsewhere q own).commitLastAgent prepared lastAgent) := by
  cases lastAgent with
  | none => exact alike_pure rfl
  | some p =>
    have hcommitted : c.Likens q (Renames c.id)
        (do c.setResourceStatus p .committed; return .ok ())
        (do (c.elsewhere q own).setResourceStatus p .committed; return .ok ()) :=
      (likens_setResourceStatus c p _).seq fun _ => alike_pure rfl
    have hfailed : ∀ e : ResourceError, c.Likens q (Renames (α := Unit) c.id)
        (do c.setResourceStatus p .failed
            Except.error <$> c.abort prepared (.lastAgentFailed p.id) (some e))
        (do (c.elsewhere q own).setResourceStatus p .failed
            Except.error <$>
              (c.elsewhere q own).abort prepared (.lastAgentFailed p.id) (some e)) :=
      fun e => (likens_setResourceStatus c p _).seq fun _ => likens_aborted c _ _ _
    refine (likens_commitAt c p.adapter true).seq fun answer => ?_
    rcases answer with e | ⟨⟩
    · cases e with
      | heuristicCommit => exact hcommitted
      | heuristicMixed =>
        exact (likens_setResourceStatus c p _).seq fun _ =>
          (likens_rollBack c prepared).seq fun _ =>
            (likens_countHeuristic c).seq fun _ => alike_pure rfl
      | _ => exact hfailed _
    · exact hcommitted

lemma likens_abortUnwritten (prepared : List Participant) (lastAgent : Option Participant)
    (e : StorageError) :
    c.Likens q (fun e e' => e = e'.named c.id) (c.abortUnwritten prepared lastAgent e)
      ((c.elsewhere q own).abortUnwritten prepared lastAgent e) := by
  refine (likens_rollBack c prepared).discard.seq fun _ => ?_
  cases lastAgent with
  | some p => exact (likens_countHeuristic c).seq fun _ => alike_pure rfl
  | none => exact alike_pure rfl

lemma divergence_elsewhere (lastAgent : Option Participant) (prepared : List Participant)
    (failures : List HeuristicFailure) :
    c.divergence lastAgent prepared failures =
      ((c.elsewhere q own).divergence lastAgent prepared failures).named c.id := by
  unfold divergence
  dsimp only
  split <;> rfl

lemma likens_carryOut (lastAgent : Option Participant) (prepared : List Participant) :
    c.Likens q (Renames c.id) (c.carryOut lastAgent prepared)
      ((c.elsewhere q own).carryOut lastAgent prepared) := by
  refine (likens_timestamp c).seq fun time => ?_
  refine (likens_append c c.log ⟨own, .committed, prepared.map (·.id), time⟩).seq fun answer => ?_
  rcases answer with e | ⟨⟩
  · exact (likens_abortUnwritten c prepared lastAgent e).map fun _ _ h => congrArg Except.error h
  · dsimp only
    by_cases hp : prepared.isEmpty
    · rw [if_pos hp, if_pos hp]
      exact (likens_finish c _).seq fun _ => alike_pure rfl
    · rw [if_neg hp, if_neg hp]
      refine (likens_setStatus c _).seq fun _ => (likens_commitEach c prepared).seq fun fs => ?_
      refine (likens_recordOutcome c _ _).seq fun _ => (likens_finish c _).seq fun _ => ?_
      by_cases hf : fs.isEmpty
      · rw [if_pos hf, if_pos hf]
        exact alike_pure rfl
      · rw [if_neg hf, if_neg hf]
        exact (likens_countHeuristic c).seq fun _ =>
          alike_pure (congrArg Except.error (divergence_elsewhere ..))

lemma likens_commitTwoPhase (ps : List Participant) :
    c.Likens q (Renames c.id) (c.commitTwoPhase ps) ((c.elsewhere q own).commitTwoPhase ps) := by
  refine (likens_collectVotes c _ [] _).bind fun x y hxy => ?_
  obtain rfl := hxy
  rcases y with e | prepared
  · exact alike_pure rfl
  · have henter : c.Likens q Eq (c.locked Transaction.enterPrepared)
        ((c.elsewhere q own).locked Transaction.enterPrepared) :=
      likens_locked c fun x => by rw [x.enterPrepared_named]; exact ⟨rfl, rfl⟩
    refine henter.seq fun marked => ?_
    cases marked with
    | some reason => exact likens_aborted c _ _ _
    | none =>
      refine (likens_commitLastAgent c prepared _).bind fun x y hxy => ?_
      obtain rfl := hxy
      rcases y with e | ⟨⟩
      · exact alike_pure rfl
      · exact likens_carryOut c _ prepared

lemma likens_commitAll (ps : List Participant) :
    c.Likens q (Renames c.id) (c.commitAll ps) ((c.elsewhere q own).commitAll ps) := by
  rcases ps with _ | ⟨p, _ | ⟨p', ps⟩⟩
  · exact (likens_recordOutcome c _ _).seq fun _ => (likens_finish c _).seq fun _ => alike_pure rfl
  · unfold commitAll
    dsimp only
    by_cases hp : p.twoPhase
    · rw [if_pos hp, if_pos hp]
      exact likens_commitOnePhase c p
    · rw [if_neg hp, if_neg hp]
      exact likens_commitTwoPhase c [p]
  · exact likens_commitTwoPhase c _

/-- What is marked is rolled back. -/
lemma likens_marked :
    c.Likens q (Renames (α := Unit) c.id) (Except.error <$> c.rollBackMarked)
      (Except.error <$> (c.elsewhere q own).rollBackMarked) :=
  (likens_rollBackMarked c).map fun _ _ h => congrArg Except.error h

lemma likens_commitActive (xs : List Synchronization) :
    c.Likens q (Renames c.id) (c.commitActive xs) ((c.elsewhere q own).commitActive xs) := by
  refine (likens_runBefore c xs).seq fun _ => ?_
  have henter : c.Likens q Eq (c.locked Transaction.enterCommit)
      ((c.elsewhere q own).locked Transaction.enterCommit) :=
    likens_locked c fun x => by rw [x.enterCommit_named]; exact ⟨rfl, rfl⟩
  refine henter.seq fun entered => ?_
  cases entered with
  | none => exact likens_marked c
  | some ps => exact likens_commitAll c ps

lemma likens_commit : c.Likens q (Renames c.id) c.commit (c.elsewhere q own).commit := by
  have hadmit : c.Likens q (fun x y => x = y.named c.id) (c.locked Transaction.admitCommit)
      ((c.elsewhere q own).locked Transaction.admitCommit) :=
    likens_locked c fun x => by rw [x.admitCommit_named]; exact ⟨rfl, rfl⟩
  refine hadmit.bind fun x y hxy => ?_
  obtain rfl := hxy
  cases y with
  | refused why => exact alike_pure rfl
  | toRollBack => exact likens_marked c
  | toCommit xs => exact likens_commitActive c xs

lemma likens_rollback : c.Likens q (Renames c.id) c.rollback (c.elsewhere q own).rollback := by
  have hadmit : c.Likens q (fun x y => x = y.map (Misuse.named c.id))
      (c.locked Transaction.admitRollback)
      ((c.elsewhere q own).locked Transaction.admitRollback) :=
    likens_locked c fun x => by rw [x.admitRollback_named]; exact ⟨rfl, rfl⟩
  refine hadmit.bind fun x y hxy => ?_
  obtain rfl := hxy
  cases y with
  | some why => exact alike_pure rfl
  | none => exact (likens_rollBackAll c).seq fun _ => alike_pure rfl

end Completion

/-! ### Requests -/

variable {id : TxId} {r q : TxRef} {s t : System}

/-- The completion of the one transaction and that of the other have the same to go by. -/
lemma System.Alike.completion (h : System.Alike id r q s t) (m : ManagerRef) :
    (Completion.of m r s).id = id ∧
      Completion.of m q t = (Completion.of m r s).elsewhere q (t.tx q).id := by
  refine ⟨h.id_eq, ?_⟩
  simp only [Completion.of, Completion.elsewhere, (h.manager m).log]

lemma alike_commit (m : ManagerRef) :
    Proc.Alike id r q (Completion.Renames id) (Coordinator.commit m r)
      (Coordinator.commit m q) := by
  have hturn : Proc.Alike id r q Eq Proc.turn Proc.turn :=
    Proc.alike_ask (p := .turn) fun _ _ _ => rfl
  refine hturn.seq fun _ => (Proc.alike_change fun _ _ hs => hs.expireIfDue m).seq fun _ => ?_
  intro s t hs
  obtain ⟨hid, hc⟩ := hs.completion m
  have hcommit : (Completion.of m r s).Likens q (Completion.Renames _) (Completion.of m r s).commit
      ((Completion.of m r s).elsewhere q (t.tx q).id).commit :=
    Completion.likens_commit _
  rw [Completion.Likens, hid, ← hc] at hcommit
  exact hcommit s t hs

lemma alike_rollback (m : ManagerRef) :
    Proc.Alike id r q (Completion.Renames id) (Coordinator.rollback m r)
      (Coordinator.rollback m q) := by
  intro s t hs
  obtain ⟨hid, hc⟩ := hs.completion m
  have hrollback : (Completion.of m r s).Likens q (Completion.Renames _)
      (Completion.of m r s).rollback ((Completion.of m r s).elsewhere q (t.tx q).id).rollback :=
    Completion.likens_rollback _
  rw [Completion.Likens, hid, ← hc] at hrollback
  exact hrollback s t hs

end TwoPhaseCommit
