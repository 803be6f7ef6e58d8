import TwoPhaseCommit.Proofs.Moves

/-!
# Completions among bystanders

A completion goes through stages, each a property of its transaction that bystanders keep. There is
one specification for each procedure of the completion, by `Completion.Goes`: from which stage to
which it leads, and whether meanwhile the transaction is struck from the list of its manager and how
many divergences are counted. In the end these are as many as the answer reports.
-/

namespace TwoPhaseCommit

namespace Completion

variable {α β : Type} {c : Completion} {P : Diary → Transaction → Prop} {b : Bool} {n : Nat}

/-! ### The stages of a completion -/

/-- The callbacks run. -/
structure Early (t : Transaction) : Prop where
  completing : t.completing = true
  status : t.status = .active ∨ t.status = .markedRollback
  marks : t.WellMarked

/-- The participants vote. -/
structure Voting (ps : List Participant) (t : Transaction) : Prop where
  completing : t.completing = true
  status : t.status = .preparing ∨ t.status = .markedRollback
  participants : t.participants = ps
  marks : t.WellMarked

/-- The participants are known, and nobody but the completion changes the status or the reason to
roll back. -/
structure Held (s : Status) (W : Option RollbackReason → Prop) (ps : List Participant)
    (t : Transaction) : Prop where
  completing : t.completing = true
  status : t.status = s
  reason : W t.rollbackReason
  participants : t.participants = ps
  marks : t.WellMarked

/-- The outcome is final. -/
structure Over (outcome : Status) (W : Option RollbackReason → Prop) (ps : List Participant)
    (t : Transaction) : Prop where
  status : t.status = outcome
  ended : t.Ended
  completing : t.completing = false
  reason : W t.rollbackReason
  participants : t.participants = ps
  marks : t.WellMarked

variable {ps : List Participant} {W : Option RollbackReason → Prop}

lemma participants_of_resources {t t' : Transaction} (h : t'.resources = t.resources) :
    t'.participants = t.participants :=
  Transaction.participants_congr (by rw [Transaction.adapters, h, Transaction.adapters])

lemma adapters_setResourceStatus (t : Transaction) (i : Nat) (s : ResourceStatus) :
    (t.setResourceStatus i s).adapters = t.adapters := by
  simp only [Transaction.adapters, Transaction.setResourceStatus]
  apply List.ext_getElem (by simp)
  intro j h₁ h₂
  simp only [List.getElem_map, List.getElem_modify]
  split <;> rfl

lemma participants_setResourceStatus (t : Transaction) (i : Nat) (s : ResourceStatus) :
    (t.setResourceStatus i s).participants = t.participants :=
  Transaction.participants_congr (adapters_setResourceStatus t i s)

lemma same_setResourceStatus (t : Transaction) (i : Nat) (s : ResourceStatus) :
    t.Same (t.setResourceStatus i s) :=
  ⟨rfl, adapters_setResourceStatus t i s, .of_eq rfl rfl rfl rfl⟩

lemma stable_early : Stable Early where
  taken h := .inl h.completing
  keeps {t t'} h hu := by
    have hk := hu.keeps (.inl h.completing)
    refine ⟨hk.completing.trans h.completing, ?_, hu.grows.onward.marks h.marks⟩
    rcases hk.status with hs | ⟨_, hs⟩
    · rw [hs]
      exact h.status
    · exact .inr hs
  blind i s h := ⟨h.completing, h.status, (same_setResourceStatus _ i s).onward.marks h.marks⟩

lemma stable_voting (ps : List Participant) : Stable (Voting ps) where
  taken h := .inl h.completing
  keeps {t t'} h hu := by
    have hk := hu.keeps (.inl h.completing)
    have ha : t.status ≠ .active := by
      rcases h.status with hs | hs <;> simp [hs]
    refine ⟨hk.completing.trans h.completing, ?_,
      (participants_of_resources (hk.resources ha)).trans h.participants,
      hu.grows.onward.marks h.marks⟩
    rcases hk.status with hs | ⟨_, hs⟩
    · rw [hs]
      exact h.status
    · exact .inr hs
  blind i s h := ⟨h.completing, h.status,
    (participants_setResourceStatus _ i s).trans h.participants,
    (same_setResourceStatus _ i s).onward.marks h.marks⟩

lemma stable_held {s : Status} (hs : 2 ≤ s.stage) (W : Option RollbackReason → Prop)
    (ps : List Participant) : Stable (Held s W ps) where
  taken h := .inl h.completing
  keeps {t t'} h hu := by
    have hk := hu.keeps (.inl h.completing)
    have hstage : 2 ≤ t.status.stage := h.status.symm ▸ hs
    have hearly : ¬(t.status = .active ∨ t.status = .preparing) := by
      rintro (ht | ht) <;> simp [ht, Status.stage] at hstage
    refine ⟨hk.completing.trans h.completing, ?_, ?_, ?_, hu.grows.onward.marks h.marks⟩
    · exact (hk.status.resolve_right fun hm => hearly hm.1).trans h.status
    · rw [hu.grows.onward.late h.marks hstage]
      exact h.reason
    · exact (participants_of_resources (hk.resources fun ha => hearly (.inl ha))).trans
        h.participants
  blind i s h := ⟨h.completing, h.status, h.reason,
    (participants_setResourceStatus _ i s).trans h.participants,
    (same_setResourceStatus _ i s).onward.marks h.marks⟩

lemma stable_over (outcome : Status) (W : Option RollbackReason → Prop) (ps : List Participant) :
    Stable (Over outcome W ps) where
  taken h := .inr h.ended
  keeps {t t'} h hu := by
    have hk := hu.keeps (.inr h.ended)
    have hs : t'.status = t.status := hk.ended h.ended
    have ha : t.status ≠ .active := by
      rcases h.ended with he | he <;> rw [he] <;> simp
    refine ⟨hs.trans h.status, ?_, hk.completing.trans h.completing, ?_, ?_,
      hu.grows.onward.marks h.marks⟩
    · rw [Transaction.Ended, hs]
      exact h.ended
    · rw [hu.grows.onward.late h.marks h.ended.stage_le]
      exact h.reason
    · exact (participants_of_resources (hk.resources ha)).trans h.participants
  blind i s h := ⟨h.status, h.ended, h.completing, h.reason,
    (participants_setResourceStatus _ i s).trans h.participants,
    (same_setResourceStatus _ i s).onward.marks h.marks⟩

/-! ### Steps of a completion -/

lemma goes_setResourceStatus (hP : Lasting P) (p : Participant) (s : ResourceStatus) :
    c.Goes P (c.setResourceStatus p s) fun _ => P :=
  goes_update hP fun g _ ht =>
    have hblind := (hP.stable g).blind p.index s ht
    ⟨.of_status_eq (same_setResourceStatus _ p.index s) ((hP.stable g).taken hblind) rfl rfl rfl,
      hblind⟩

lemma goes_countHeuristic {P : Transaction → Prop} (hP : Stable P) :
    c.Goes (Noted b n P) c.countHeuristic fun _ => Noted b (n + 1) P :=
  goes_change hP.noted fun _ _ _ hp =>
    ⟨_, .counts (hP.taken hp.holds), hp.struck, congrArg (· + 1) hp.divergences, hp.holds⟩

lemma goes_recordOutcome (hP : Lasting P) (d : Decision) (pending : List ResourceId) :
    c.Goes P (c.recordOutcome d pending) fun _ => P :=
  (goes_view _).bind fun _ => (goes_asked hP _).discard

lemma goes_notify (hP : Lasting P) (outcome : Status) (xs : List Synchronization) :
    c.Goes P (notify outcome xs) fun _ => P := by
  induction xs with
  | nil => exact goes_pure fun _ _ h => h
  | cons x xs ih => exact (goes_asked hP _).discard.bind fun _ => ih

/-- A status that ends a completion is not reached before the vote is over. -/
lemma stage_of_next {s outcome : Status} (hn : outcome ∈ s.next)
    (ho : outcome = .rolledBack ∨ outcome = .committed) : 2 ≤ s.stage := by
  revert hn
  rcases ho with rfl | rfl <;> cases s <;> decide

/-- A completion is finished as committed without a mark only. -/
lemma goes_finish {s outcome : Status} (hn : outcome ∈ s.next)
    (ho : outcome = .rolledBack ∨ outcome = .committed ∧ ∀ why, ¬W (some why)) :
    c.Goes (Noted false n (Held s W ps)) (c.finish outcome)
      fun _ => Noted true n (Over outcome W ps) := by
  have hs : 2 ≤ s.stage := stage_of_next hn (ho.imp_right And.left)
  have hover := stable_over outcome W ps
  have hstrike : c.Goes (Noted false n (Over outcome W ps))
      (do Proc.turn; Proc.change (c.unregister outcome))
      fun _ => Noted true n (Over outcome W ps) :=
    goes_change hover.noted fun g s hs hp => by
      refine ⟨{ g with struck := true }, ?_, rfl, hp.divergences, hp.holds⟩
      rw [← hp.holds.status]
      exact .strikes hp.holds.ended
  refine (goes_locked (Q := fun _ => Noted false n (Over outcome W ps)) (stable_held hs W ps).noted
    fun g t ht => ?_).bind fun order => hstrike.bind fun _ => goes_notify hover.noted _ _
  have hheld := ht.holds
  have hended : (t.finish outcome).Ended := (ho.imp_right And.left).symm
  -- a mark would have led to another outcome
  have hnone : t.rollbackReason = none ∨ outcome = .rollingBack ∨ outcome = .rolledBack := by
    rcases ho with ho | ⟨-, hnot⟩
    · exact .inr (.inr ho)
    · left
      have hreason := hheld.reason
      cases hr : t.rollbackReason with
      | none => rfl
      | some why => exact absurd (hr ▸ hreason) (hnot why)
  have hnext : outcome ∈ t.status.next := hheld.status.symm ▸ hn
  have honward : t.Onward (t.finish outcome) := by
    refine .of_status (s := outcome) rfl rfl rfl rfl (Status.stage_lt_of_next hnext).le ?_ hnone
    rcases ho with rfl | ⟨rfl, -⟩ <;> simp
  refine ⟨.of_next ⟨rfl, rfl, honward⟩ (.inr hended) rfl rfl hnext ?_, ht.struck, ht.divergences,
    ?_⟩
  · rcases ho with rfl | ⟨rfl, -⟩ <;> simp [Transaction.finish]
  · exact ⟨rfl, hended, rfl, hheld.reason, hheld.participants, honward.marks hheld.marks⟩

/-! ### Rolling back -/

/-- A completion that has not come to its end can roll back. -/
structure Undoable (W : Option RollbackReason → Prop) (t : Transaction) : Prop where
  completing : t.completing = true
  next : .rollingBack ∈ t.status.next
  reason : W t.rollbackReason
  marks : t.WellMarked

lemma Early.undoable {t : Transaction} (h : Early t) : Undoable (fun _ => True) t where
  completing := h.completing
  next := by rcases h.status with hs | hs <;> simp [hs, Status.next]
  reason := trivial
  marks := h.marks

lemma Voting.undoable {t : Transaction} (h : Voting ps t) : Undoable (fun _ => True) t where
  completing := h.completing
  next := by rcases h.status with hs | hs <;> simp [hs, Status.next]
  reason := trivial
  marks := h.marks

lemma Held.undoable {s : Status} (hs : .rollingBack ∈ s.next) {t : Transaction}
    (h : Held s W ps t) :
    Undoable W t where
  completing := h.completing
  next := by rw [h.status]; exact hs
  reason := h.reason
  marks := h.marks

lemma stable_undoing (W : Option RollbackReason → Prop) (ps : List Participant) :
    Stable (Held .rollingBack W ps) :=
  stable_held (by simp [Status.stage]) W ps

/-- The rollback begins. -/
lemma Undoable.held {t : Transaction} (h : Undoable W t) (c : Completion) (g : Diary) :
    c.Moves g t { t with status := .rollingBack } ∧
      Held .rollingBack W t.participants { t with status := .rollingBack } := by
  have ho : t.Onward { t with status := .rollingBack } :=
    .of_status rfl rfl rfl rfl (Status.stage_lt_of_next h.next).le (by simp) (.inr (.inl rfl))
  exact ⟨.of_next ⟨rfl, rfl, ho⟩ (.inl h.completing) rfl rfl h.next (by simp),
    h.completing, rfl, h.reason, rfl, ho.marks h.marks⟩

lemma goes_tellEach (hP : Lasting P) {call : Participant → Proc (Except ResourceError Unit)}
    (hcall : ∀ p, c.Goes P (call p) fun _ => P) (own : ResourceError) (reached : ResourceStatus)
    (targets : List Participant) :
    c.Goes P (c.tellEach call own reached targets) fun _ => P := by
  induction targets with
  | nil => exact goes_pure fun _ _ h => h
  | cons p targets ih =>
    apply (hcall p).bind
    intro answer
    split
    · exact (goes_setResourceStatus hP p _).bind fun _ => ih
    · exact (goes_setResourceStatus hP p _).bind fun _ => ih.bind fun _ => goes_pure fun _ _ h => h

lemma goes_rollbackEach (hP : Lasting P) (targets : List Participant) :
    c.Goes P (c.rollbackEach targets) fun _ => P :=
  goes_tellEach hP (fun _ => goes_asked hP _) ..

lemma goes_commitEach (hP : Lasting P) (targets : List Participant) :
    c.Goes P (c.commitEach targets) fun _ => P :=
  goes_tellEach hP (fun _ => goes_asked hP _) ..

lemma goes_rollBackAt (targets : List Participant) :
    c.Goes (Noted false n (Held .rollingBack W ps)) (c.rollBackAt targets)
      fun _ => Noted true n (Over .rolledBack W ps) :=
  (goes_rollbackEach (stable_undoing W ps).noted targets).bind fun _ =>
    (goes_recordOutcome (stable_undoing W ps).noted _ _).bind fun _ =>
      (goes_finish (by simp [Status.next]) (.inl rfl)).bind fun _ => goes_pure fun _ _ h => h

section Undo

variable {P : Transaction → Prop}

lemma goes_rollBack (hP : Stable P) (h : ∀ t, P t → Undoable W t ∧ t.participants = ps)
    (targets : List Participant) :
    c.Goes (Noted false n P) (c.rollBack targets) fun _ => Noted true n (Over .rolledBack W ps) := by
  refine (goes_update hP.noted fun g t ht => ?_).bind fun _ => goes_rollBackAt targets
  obtain ⟨hu, rfl⟩ := h t ht.holds
  obtain ⟨hmoves, hheld⟩ := hu.held c g
  exact ⟨hmoves, ht.struck, ht.divergences, hheld⟩

lemma goes_abort (hP : Stable P) (h : ∀ t, P t → Undoable W t ∧ t.participants = ps)
    (targets : List Participant) (reason : RollbackReason) (cause : Option ResourceError) :
    c.Goes (Noted false 0 P) (c.abort targets reason cause)
      fun e => Noted true e.isHeuristic.toNat (Over .rolledBack W ps) :=
  (goes_rollBack hP h targets).discard.bind fun _ => goes_pure fun _ _ h => h

/-- Rolled back at every participant that was in when the rollback began. -/
def RolledBack (W : Option RollbackReason → Prop) (t : Transaction) : Prop :=
  Over .rolledBack W t.participants t

lemma stable_rolledBack (W : Option RollbackReason → Prop) : Stable (RolledBack W) where
  taken h := (stable_over ..).taken h
  keeps h hu := by
    have hover := (stable_over ..).keeps h hu
    rw [RolledBack, hover.participants]
    exact hover
  blind i s h := by
    rw [RolledBack, participants_setResourceStatus]
    exact (stable_over ..).blind i s h

lemma goes_rollBackAll (hP : Stable P) (h : ∀ t, P t → Undoable W t) :
    c.Goes (Noted false n P) c.rollBackAll fun _ => Noted true n (RolledBack W) := by
  refine (goes_locked (Q := fun ps => Noted false n (Held .rollingBack W ps)) hP.noted
    fun g t ht => ?_).bind fun targets => ?_
  · obtain ⟨hmoves, hheld⟩ := (h t ht.holds).held c g
    exact ⟨hmoves, ht.struck, ht.divergences, hheld⟩
  · refine ((goes_rollBackAt targets).weaken fun _ _ t hover => hover.weaken fun hover => ?_).discard
    rw [RolledBack, hover.participants]
    exact hover

lemma goes_rollBackMarked (hP : Stable P) (h : ∀ t, P t → Undoable W t) :
    c.Goes (Noted false 0 P) c.rollBackMarked
      fun e => Noted true e.isHeuristic.toNat (RolledBack W) :=
  (goes_current hP.noted).bind fun _ => ((goes_rollBackAll hP h).strengthen fun _ _ h => h.2).bind
    fun _ => goes_pure fun _ _ h => h

end Undo

/-! ### Committing -/

/-- Over, with one outcome or the other. -/
def Concluded (W : Option RollbackReason → Prop) (ps : List Participant) (t : Transaction) : Prop :=
  Over t.status W ps t

lemma Over.concluded {outcome : Status} {t : Transaction} (h : Over outcome W ps t) :
    Concluded W ps t :=
  { h with status := rfl }

lemma Concluded.weaken {W' : Option RollbackReason → Prop} {t : Transaction}
    (h : Concluded W ps t) (hW : ∀ w, W w → W' w) : Concluded W' ps t :=
  { h with reason := hW _ h.reason }

lemma stable_concluded (W : Option RollbackReason → Prop) (ps : List Participant) :
    Stable (Concluded W ps) where
  taken h := (stable_over ..).taken h
  keeps h hu := ((stable_over ..).keeps h hu).concluded
  blind i s h := ((stable_over ..).blind i s h).concluded

/-- No reason to roll back came up in time. -/
abbrev Unmarked (w : Option RollbackReason) : Prop := w = none

lemma not_unmarked (why : RollbackReason) : ¬Unmarked (some why) := by simp [Unmarked]

/-- The commit is decided, or was decided to be without a vote. -/
abbrev Committing (ps : List Participant) : Transaction → Prop := Held .committing Unmarked ps

/-- All have voted to commit. -/
abbrev Prepared (ps : List Participant) : Transaction → Prop := Held .prepared Unmarked ps

lemma stable_committing (ps : List Participant) : Stable (Committing ps) :=
  stable_held (by simp [Status.stage]) ..

lemma stable_prepared (ps : List Participant) : Stable (Prepared ps) :=
  stable_held (by simp [Status.stage]) ..

/-- How many divergences an answer reports. -/
def reported : Except TxError α → Nat
  | .ok _ => 0
  | .error e => e.isHeuristic.toNat

/-- The answer is given when all is over. -/
lemma goes_conclude {x : Except TxError α} {outcome : Status} (hx : reported x = n) :
    c.Goes (Noted true n (Over outcome W ps)) (pure x)
      fun x => Noted true (reported x) (Concluded W ps) :=
  goes_pure fun _ _ h => ⟨h.struck, h.divergences.trans hx.symm, h.holds.concluded⟩

lemma goes_commitOnePhase (p : Participant) :
    c.Goes (Noted false 0 (Committing ps)) (c.commitOnePhase p)
      fun x => Noted true (reported x) (Concluded Unmarked ps) := by
  have hP := stable_committing ps
  have hset : ∀ s, c.Goes (Noted false 0 (Committing ps)) (c.setResourceStatus p s)
      fun _ => Noted false 0 (Committing ps) := goes_setResourceStatus hP.noted p
  have hrecord : ∀ d pending, c.Goes (Noted false 0 (Committing ps)) (c.recordOutcome d pending)
      fun _ => Noted false 0 (Committing ps) := goes_recordOutcome hP.noted
  have hfinish : ∀ n outcome, outcome = .rolledBack ∨ outcome = .committed →
      c.Goes (Noted false n (Committing ps)) (c.finish outcome)
        fun _ => Noted true n (Over outcome Unmarked ps) := by
    intro n outcome ho
    refine goes_finish ?_ (ho.imp_right (⟨·, not_unmarked⟩))
    rcases ho with rfl | rfl <;> simp [Status.next]
  apply (goes_asked hP.noted _).bind
  intro answer
  -- confirmed, committed on its own, diverged, or rolled back
  split
  · exact (hset _).bind fun _ => (hrecord _ _).bind fun _ => (hfinish 0 _ (.inr rfl)).bind fun _ =>
      goes_conclude rfl
  · exact (hset _).bind fun _ => (hrecord _ _).bind fun _ => (hfinish 0 _ (.inr rfl)).bind fun _ =>
      goes_conclude rfl
  · exact (hset _).bind fun _ => (hrecord _ _).bind fun _ => (goes_countHeuristic hP).bind fun _ =>
      (hfinish 1 _ (.inr rfl)).bind fun _ => goes_conclude rfl
  · exact (hset _).bind fun _ => (hrecord _ _).bind fun _ => (hfinish 0 _ (.inl rfl)).bind fun _ =>
      goes_conclude rfl

/-- A part of a commit that may end it: by an error it is rolled back, otherwise it goes on. -/
def Unless (W : Option RollbackReason → Prop) (ps : List Participant) (P : Transaction → Prop) :
    Except TxError α → Transaction → Prop
  | .ok _ => P
  | .error _ => Over .rolledBack W ps

/-- The same with the diary: the transaction is struck when it is rolled back. -/
abbrev NotedUnless (W : Option RollbackReason → Prop) (ps : List Participant)
    (P : Transaction → Prop)
    (x : Except TxError α) : Diary → Transaction → Prop :=
  Noted (!x.isOk) (reported x) (Unless W ps P x)

section Abort

variable {P : Transaction → Prop}

lemma goes_aborted (hP : Stable P) (h : ∀ t, P t → Undoable W t ∧ t.participants = ps)
    (targets : List Participant) (reason : RollbackReason) (cause : Option ResourceError) :
    c.Goes (Noted false 0 P) (Except.error <$> c.abort targets reason cause)
      (NotedUnless (α := α) W ps P) :=
  (goes_abort hP h targets reason cause).map (f := Except.error) (Q := NotedUnless W ps P)

lemma goes_given_up (hP : Stable P) (h : ∀ t, P t → Undoable W t ∧ t.participants = ps)
    (targets : List Participant) (reason : RollbackReason) (cause : Option ResourceError) :
    c.Goes (Noted false 0 P)
      (Except.error <$> c.abort targets reason cause : Proc (Except TxError α))
      fun x => Noted true (reported x) (Concluded W ps) :=
  ((goes_abort hP h targets reason cause).weaken fun _ _ _ h => h.weaken (·.concluded)).map
    (f := Except.error) (Q := fun x => Noted true (reported x) (Concluded W ps))

end Abort

lemma Voting.undone {t : Transaction} (h : Voting ps t) :
    Undoable (fun _ => True) t ∧ t.participants = ps :=
  ⟨h.undoable, h.participants⟩

/-- While the participants vote: those who were asked have agreed. -/
structure Balloting (c : Completion) (ps unvoted : List Participant) (g : Diary) (t : Transaction) :
    Prop where
  noted : Noted false 0 (Voting ps) g t
  agreed : ∀ p ∈ ps, p.twoPhase = true → p ∈ unvoted ∨ c.Voted g p

lemma lasting_balloting (c : Completion) (ps unvoted : List Participant) :
    Lasting (c.Balloting ps unvoted) where
  stable g := by
    have hP := ((stable_voting ps).noted (b := false) (n := 0)).stable g
    exact ⟨fun h => hP.taken h.noted, fun h hu => ⟨hP.keeps h.noted hu, h.agreed⟩,
      fun i s h => ⟨hP.blind i s h.noted, h.agreed⟩⟩
  hears {g t} q a h := by
    refine ⟨(stable_voting ps).noted.hears q a h.noted,
      fun p hp htwo => (h.agreed p hp htwo).imp_right ?_⟩
    exact Or.imp (List.mem_append_left _) (List.mem_append_left _)

/-- Who has voted to commit, or to have no part in it, has agreed. -/
lemma Balloting.agree {t : Transaction} {p : Participant} {unvoted : List Participant}
    {a : Except ResourceError Vote} {g : Diary} (h : c.Balloting ps (p :: unvoted) g t)
    (ha : a = .ok .commit ∨ a = .ok .readOnly) :
    c.Balloting ps unvoted (g.hear (.prepare p.adapter c.id) a) t where
  noted := (stable_voting ps).noted.hears _ _ h.noted
  agreed q hq htwo := by
    have hlater :=
      ((lasting_balloting c ps (p :: unvoted)).hears (.prepare p.adapter c.id) a h).agreed
    rcases hlater q hq htwo with hmem | hvoted
    · rcases List.mem_cons.mp hmem with rfl | hmem
      · right
        have hsaid : c.ballot q a ∈ (g.hear (.prepare q.adapter c.id) a).said :=
          List.mem_append_right _ (List.mem_singleton_self _)
        rcases ha with rfl | rfl
        · exact .inl hsaid
        · exact .inr hsaid
      · exact .inl hmem
    · exact .inr hvoted

/-- What a vote leaves. -/
def Counted (c : Completion) (ps : List Participant) :
    Except TxError (List Participant) → Diary → Transaction → Prop
  | .ok _ => c.Balloting ps []
  | .error e => Noted true e.isHeuristic.toNat (Over .rolledBack (fun _ => True) ps)

lemma goes_collectVotes (lastAgent : Option Participant) (prepared unvoted : List Participant) :
    c.Goes (c.Balloting ps unvoted) (c.collectVotes lastAgent prepared unvoted) (c.Counted ps) := by
  have hgiven : ∀ {unvoted : List Participant} targets reason cause, c.Goes (c.Balloting ps unvoted)
      (Except.error <$> c.abort targets reason cause) (c.Counted ps) :=
    fun targets reason cause =>
      ((goes_abort (stable_voting ps) (fun _ h => h.undone) targets reason cause).strengthen
        fun _ _ h => h.noted).map (f := Except.error) (Q := c.Counted ps)
  induction unvoted generalizing prepared with
  | nil => exact goes_pure fun _ _ h => h
  | cons p unvoted ih =>
    have hP := lasting_balloting c ps (p :: unvoted)
    refine ((goes_current hP).weaken fun _ _ _ h => h.2).bind fun now => ?_
    split
    · -- the transaction has been marked meanwhile
      exact hgiven ..
    · -- by the answer: one who has not voted less, or the end
      let Q : Except ResourceError Vote → Diary → Transaction → Prop := fun a =>
        if a = .ok .commit ∨ a = .ok .readOnly then c.Balloting ps unvoted
        else c.Balloting ps (p :: unvoted)
      have hQ : ∀ a, Lasting (Q a) := by
        intro a
        dsimp only [Q]
        split
        · exact lasting_balloting ..
        · exact hP
      refine (goes_ask (Q := Q) hP _ fun a g t h => ?_).bind fun answer => ?_
      · dsimp only [Q]
        split
        next ha => exact h.agree ha
        next => exact hP.hears _ _ h
      · have hset : ∀ a s, c.Goes (Q a) (c.setResourceStatus p s) fun _ => Q a :=
          fun a => goes_setResourceStatus (hQ a) p
        split
        · exact (hset (.ok .commit) _).bind fun _ => ih _
        · exact (hset (.ok .readOnly) _).bind fun _ => ih _
        · exact (hset (.ok .rollback) _).bind fun _ => hgiven ..
        · exact (hset (.error _) _).bind fun _ => hgiven ..

lemma prepared_undone (t : Transaction) (h : Prepared ps t) :
    Undoable Unmarked t ∧ t.participants = ps :=
  ⟨h.undoable (by simp [Status.next]), h.participants⟩

lemma goes_commitLastAgent (prepared : List Participant) (lastAgent : Option Participant) :
    c.Goes (Noted false 0 (Prepared ps)) (c.commitLastAgent prepared lastAgent)
      (NotedUnless Unmarked ps (Prepared ps)) := by
  have hP := stable_prepared ps
  cases lastAgent with
  | none => exact goes_pure fun _ _ h => h
  | some p =>
    have hset : ∀ s, c.Goes (Noted false 0 (Prepared ps)) (c.setResourceStatus p s)
        fun _ => Noted false 0 (Prepared ps) := goes_setResourceStatus hP.noted p
    apply (goes_asked hP.noted _).bind
    intro answer
    split
    · exact (hset _).bind fun _ => goes_pure fun _ _ h => h
    · exact (hset _).bind fun _ => goes_pure fun _ _ h => h
    · exact (hset _).bind fun _ => (goes_rollBack hP prepared_undone prepared).bind fun _ =>
        (goes_countHeuristic (stable_over ..)).bind fun _ => goes_pure fun _ _ h => h
    · exact (hset _).bind fun _ => goes_aborted hP prepared_undone ..

lemma goes_abortUnwritten (prepared : List Participant) (lastAgent : Option Participant)
    (e : StorageError) :
    c.Goes (Noted false 0 (Prepared ps)) (c.abortUnwritten prepared lastAgent e)
      fun e => Noted true e.isHeuristic.toNat (Over .rolledBack Unmarked ps) := by
  apply (goes_rollBack (stable_prepared ps) prepared_undone prepared).discard.bind
  intro _
  cases lastAgent with
  | none => exact goes_pure fun _ _ h => h
  | some p =>
    exact (goes_countHeuristic (stable_over ..)).bind fun _ => goes_pure fun _ _ h => h

/-- The decision is made. -/
lemma goes_setCommitting :
    c.Goes (Noted false n (Prepared ps)) (c.setStatus .committing)
      fun _ => Noted false n (Committing ps) := by
  refine goes_update (stable_prepared ps).noted fun g t ht => ?_
  have hheld := ht.holds
  have ho : t.Onward { t with status := .committing } :=
    .of_status rfl rfl rfl rfl (by simp [hheld.status, Status.stage]) (by simp) (.inl hheld.reason)
  refine ⟨.of_next ⟨rfl, rfl, ho⟩ (.inl hheld.completing) rfl rfl ?_ (by simp), ht.struck,
    ht.divergences, hheld.completing, rfl, hheld.reason, hheld.participants, ho.marks hheld.marks⟩
  simp [hheld.status, Status.next]

/-- The answer counts as a divergence whichever of the two it is. -/
lemma isHeuristic_divergence (lastAgent : Option Participant) (prepared : List Participant)
    (failures : List HeuristicFailure) :
    (c.divergence lastAgent prepared failures).isHeuristic = true := by
  unfold divergence
  dsimp only
  split <;> rfl

lemma goes_carryOut (lastAgent : Option Participant) (prepared : List Participant) :
    c.Goes (Noted false 0 (Prepared ps)) (c.carryOut lastAgent prepared)
      fun x => Noted true (reported x) (Concluded Unmarked ps) := by
  have hP := stable_prepared ps
  have hfinish : ∀ {s : Status}, .committed ∈ s.next →
      c.Goes (Noted false 0 (Held s Unmarked ps)) (c.finish .committed)
        fun _ => Noted true 0 (Over .committed Unmarked ps) :=
    fun hs => goes_finish hs (.inr ⟨rfl, not_unmarked⟩)
  refine (goes_view _).bind fun now => (goes_asked hP.noted _).bind fun answer => ?_
  split
  · exact ((goes_abortUnwritten ..).weaken fun _ _ _ h => h.weaken (·.concluded)).map
      (f := Except.error) (Q := fun x => Noted true (reported x) (Concluded Unmarked ps))
  · split
    · exact (hfinish (by simp [Status.next])).bind fun _ => goes_conclude rfl
    · refine goes_setCommitting.bind fun _ =>
        (goes_commitEach (stable_committing ps).noted _).bind fun failures =>
          (goes_recordOutcome (stable_committing ps).noted _ _).bind fun _ =>
            (hfinish (by simp [Status.next])).bind fun _ => ?_
      split
      · exact goes_conclude rfl
      · -- a divergence is counted when the transaction has been struck from the list
        refine (goes_countHeuristic (stable_over ..)).bind fun _ => goes_pure fun g t h => ?_
        rw [reported, isHeuristic_divergence]
        exact h.weaken (·.concluded)

/-- What holds when the votes are in: the mark that was found, or no mark is accepted any more. -/
def Closed (ps : List Participant) : Option RollbackReason → Transaction → Prop
  | none => Prepared ps
  | some _ => Voting ps

lemma goes_enterPrepared :
    c.Goes (c.Balloting ps []) (c.locked Transaction.enterPrepared)
      fun marked => Noted false 0 (Closed ps marked) := by
  refine goes_locked (lasting_balloting ..) fun g t ⟨hnoted, hagreed⟩ => ?_
  obtain ⟨hstruck, hdivergences, ht⟩ := hnoted
  unfold Transaction.enterPrepared Transaction.markedReason
  by_cases hm : t.status = .markedRollback
  · rw [if_pos hm]
    exact ⟨.of_status_eq ⟨rfl, rfl, .refl t⟩ (.inl ht.completing) rfl rfl rfl, hstruck,
      hdivergences,
      ht⟩
  · have hs : t.status = .preparing := ht.status.resolve_right hm
    have hnone : t.rollbackReason = none :=
      ht.marks.reason_eq_none (by simp [hs]) (by simp [hs]) (by simp [hs])
    have ho : t.Onward { t with status := .prepared } :=
      .of_status rfl rfl rfl rfl (by simp [hs, Status.stage]) (by simp) (.inl hnone)
    -- nobody is left to ask, and so all voters have agreed
    have hvoted : ∀ p ∈ t.participants, p.twoPhase = true → c.Voted g p := fun p hp htwo =>
      (hagreed p (ht.participants ▸ hp) htwo).resolve_left List.not_mem_nil
    rw [if_neg hm]
    refine ⟨⟨⟨rfl, rfl, ho⟩, .inl ht.completing, rfl, rfl, .inr ?_, fun _ _ => hvoted⟩, hstruck,
      hdivergences, ht.completing, rfl, hnone, ht.participants, ho.marks ht.marks⟩
    simp [hs, Status.next]

lemma goes_commitTwoPhase (ps : List Participant) :
    c.Goes (Noted false 0 (Voting ps)) (c.commitTwoPhase ps)
      fun x => Noted true (reported x) (Concluded (fun _ => True) ps) := by
  have hfirst : ∀ g t, Noted false 0 (Voting ps) g t →
      c.Balloting ps (ps.filter (·.twoPhase)) g t :=
    fun g t h => ⟨h, fun p hp htwo => .inl (List.mem_filter.mpr ⟨hp, htwo⟩)⟩
  apply ((goes_collectVotes ..).strengthen hfirst).bind
  intro votes
  cases votes with
  | error e => exact goes_conclude rfl
  | ok prepared =>
    apply goes_enterPrepared.bind
    intro marked
    cases marked with
    | some reason => exact goes_given_up (stable_voting ps) (fun _ h => h.undone) ..
    | none =>
      apply (goes_commitLastAgent ..).bind
      intro result
      cases result with
      | error e =>
        exact (goes_conclude rfl).weaken fun _ _ _ h =>
          h.weaken fun h => h.weaken fun _ _ => trivial
      | ok _ =>
        exact (goes_carryOut ..).weaken fun _ _ _ h =>
          h.weaken fun h => h.weaken fun _ _ => trivial

/-- A commit is on its way, with a vote or without. -/
def Entered (ps : List Participant) : Transaction → Prop :=
  if Transaction.isDirect ps then Committing ps else Voting ps

lemma goes_commitEmpty : c.Goes (Noted false 0 (Committing ps)) c.commitEmpty
    fun x => Noted true (reported x) (Concluded Unmarked ps) :=
  (goes_recordOutcome (stable_committing ps).noted _ _).bind fun _ =>
    (goes_finish (by simp [Status.next]) (.inr ⟨rfl, not_unmarked⟩)).bind fun _ => goes_conclude rfl

lemma goes_commitAll (ps : List Participant) :
    c.Goes (Noted false 0 (Entered ps)) (c.commitAll ps)
      fun x => Noted true (reported x) (Concluded (fun _ => True) ps) := by
  match ps with
  | [] =>
    exact goes_commitEmpty.weaken fun _ _ _ h => h.weaken fun h => h.weaken fun _ _ => trivial
  | [p] =>
    by_cases hp : p.twoPhase = true
    · simp only [Entered, commitAll, Transaction.isDirect, hp, if_true]
      exact (goes_commitOnePhase p).weaken fun _ _ _ h =>
        h.weaken fun h => h.weaken fun _ _ => trivial
    · simp only [Entered, commitAll, Transaction.isDirect, hp]
      exact goes_commitTwoPhase [p]
  | p :: q :: ps => exact goes_commitTwoPhase (p :: q :: ps)

/-- The outcome is final, and so are the participants. -/
def Settled (t : Transaction) : Prop := Concluded (fun _ => True) t.participants t

lemma Concluded.settled {t : Transaction} (h : Concluded W ps t) : Settled t := by
  rw [Settled, h.participants]
  exact h.weaken fun _ _ => trivial

lemma stable_settled : Stable Settled where
  taken h := (stable_concluded ..).taken h
  keeps h hu := ((stable_concluded ..).keeps h hu).settled
  blind i s h := ((stable_concluded ..).blind i s h).settled

lemma RolledBack.settled {t : Transaction} (h : RolledBack W t) : Settled t := h.concluded.settled

/-- The mark is made by the completion itself, but as a bystander would make it. -/
lemma Early.markRollbackOnly {t : Transaction} (h : Early t) (why : RollbackReason) :
    (∀ (c : Completion) (g : Diary), c.Moves g t ((t.markRollbackOnly why).toOption.getD t)) ∧
      Early ((t.markRollbackOnly why).toOption.getD t) := by
  have hrest : ∀ (c : Completion) (g : Diary), c.Moves g t t := fun _ _ =>
    .of_status_eq ⟨rfl, rfl, .refl t⟩ (.inl h.completing) rfl rfl rfl
  rcases h.status with hs | hs
  · have hm : t.markRollbackOnly why = .ok (t.mark why) := by rw [Transaction.markRollbackOnly, hs]
    have hu := Transaction.undisturbed_markRollbackOnly hm
    have hearly := stable_early.keeps h hu
    rw [hm]
    refine ⟨fun c g => .of_next ⟨rfl, rfl, hu.grows.onward⟩ (.inl hearly.completing) rfl rfl ?_ ?_,
      hearly⟩
    · simp [Except.toOption, hs, Status.next]
    · simp [Except.toOption]
  · have hm : t.markRollbackOnly why = .ok t := by rw [Transaction.markRollbackOnly, hs]
    rw [hm]
    exact ⟨hrest, h⟩

lemma goes_runBefore (callbacks : List Synchronization) :
    c.Goes (Noted b n Early) (c.runBefore callbacks) fun _ => Noted b n Early := by
  induction callbacks with
  | nil => exact goes_pure fun _ _ h => h
  | cons x xs ih =>
    apply (goes_asked stable_early.noted _).bind
    intro answer
    split
    · exact ih
    · refine goes_update stable_early.noted fun g t ht => ?_
      obtain ⟨hmoves, hearly⟩ := ht.holds.markRollbackOnly (.beforeCompletionFailed _)
      exact ⟨hmoves c g, ht.struck, ht.divergences, hearly⟩

/-- How a commit goes on when it has looked at the transaction: the participants are known, or the
transaction is marked. -/
lemma Early.enterCommit {t : Transaction} (h : Early t) :
    t.status = .markedRollback ∧ t.enterCommit = (none, t) ∨
    t.status = .active ∧ ∃ t', t.enterCommit = (some t.participants, t') ∧
      (∀ (c : Completion) (g : Diary), c.Moves g t t') ∧ Entered t.participants t' ∧
      t'.status = if Transaction.isDirect t.participants then .committing else .preparing := by
  by_cases hm : t.status = .markedRollback
  · exact .inl ⟨hm, if_pos hm⟩
  · have hs : t.status = .active := h.status.resolve_right hm
    have hnone : t.rollbackReason = none :=
      h.marks.reason_eq_none (by simp [hs]) (by simp [hs]) (by simp [hs])
    refine .inr ⟨hs, _, if_neg hm, ?_⟩
    -- both ways lead forward, with a vote or without
    have ho : ∀ s, s = .committing ∨ s = .preparing → t.Onward { t with status := s } := by
      intro s hs'
      refine .of_status rfl rfl rfl rfl (by simp [hs, Status.stage]) ?_ (.inl hnone)
      rcases hs' with rfl | rfl <;> simp
    have hmoves : ∀ s, s = .committing ∨ s = .preparing → ∀ (c : Completion) (g : Diary),
        c.Moves g t { t with status := s } := by
      intro s hs' c g
      refine .of_next ⟨rfl, rfl, ho s hs'⟩ (.inl h.completing) rfl rfl ?_ ?_
      · rcases hs' with rfl | rfl <;> simp [hs, Status.next]
      · rcases hs' with rfl | rfl <;> simp
    dsimp only [Entered]
    by_cases hd : Transaction.isDirect t.participants = true
    · rw [if_pos hd, if_pos hd]
      exact ⟨hmoves _ (.inl rfl), ⟨h.completing, rfl, hnone, rfl, (ho _ (.inl rfl)).marks h.marks⟩,
        rfl⟩
    · rw [if_neg hd, if_neg hd]
      exact ⟨hmoves _ (.inr rfl), ⟨h.completing, .inl rfl, rfl, (ho _ (.inr rfl)).marks h.marks⟩,
        rfl⟩

lemma Entered.taken {t : Transaction} (h : Entered ps t) : t.Taken := by
  unfold Entered at h
  split at h
  · exact .inl h.completing
  · exact .inl h.completing

lemma goes_commitActive (callbacks : List Synchronization) :
    c.Goes (Noted false 0 Early) (c.commitActive callbacks)
      fun x => Noted true (reported x) Settled := by
  apply (goes_runBefore callbacks).bind
  intro _
  refine (goes_locked (Q := fun entered => Noted false 0 (entered.elim Early Entered))
    stable_early.noted fun g t ht => ?_).bind fun entered => ?_
  · rcases ht.holds.enterCommit with ⟨-, he⟩ | ⟨-, t', he, hmoves, hin, -⟩
    · rw [he]
      exact ⟨.of_status_eq ⟨rfl, rfl, .refl t⟩ (.inl ht.holds.completing) rfl rfl rfl, ht⟩
    · rw [he]
      exact ⟨hmoves c g, ht.struck, ht.divergences, hin⟩
  · cases entered with
    | none =>
      exact ((goes_rollBackMarked stable_early fun _ h => h.undoable).weaken
        fun _ _ _ h => h.weaken (·.settled)).map (f := Except.error)
          (Q := fun x => Noted true (reported x) Settled)
    | some participants =>
      exact (goes_commitAll participants).weaken fun _ _ _ h => h.weaken (·.settled)

end Completion

end TwoPhaseCommit
