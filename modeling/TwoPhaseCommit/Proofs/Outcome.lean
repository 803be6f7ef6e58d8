import TwoPhaseCommit.Proofs.Admission
import TwoPhaseCommit.Proofs.Ordering

/-!
# The outcome of a completion

What a completion has said from beginning to end and what it has left of its transaction go
together. `Course` lists the courses that a completion may take from its admission on: what each
says, what it answers, and how the transaction ends.
-/

namespace TwoPhaseCommit

/-! ### What was written, and what leads to a commit -/

/-- The record that was written. -/
def Exchange.written? : Exchange → Option LogRecord
  | ⟨.append _ r, .ok ()⟩ => some r
  | _ => none

/-- The records that were written, in order. -/
def written (es : List Exchange) : List LogRecord := es.filterMap (·.written?)

/-- Whether a question serves a commit: somebody is told to commit, or that decision is to be
written. -/
def Question.advances : Question → Bool
  | commit .. => true
  | append _ r => r.decision == .committed
  | _ => false

/-- The records agree with the status in the end, and what served a commit was not done of a
transaction that is to be rolled back. -/
structure Tallies (es : List Exchange) (t : Transaction) : Prop where
  status : ∀ r ∈ written es, t.status = r.decision.status
  unmarked : ∀ e ∈ es, e.question.advances = true → t.rollbackReason = none

section Written

variable {es es₁ es₂ : List Exchange} {t : Transaction}

@[simp] lemma written_nil : written [] = [] := rfl

@[simp] lemma written_append (es₁ es₂ : List Exchange) :
    written (es₁ ++ es₂) = written es₁ ++ written es₂ :=
  List.filterMap_append

lemma written_cons (e : Exchange) (es : List Exchange) :
    written (e :: es) = e.written?.toList ++ written es := by
  unfold written
  rw [List.filterMap_cons]
  cases e.written? <;> rfl

lemma written_of_apart (h : ∀ e ∈ es, ∀ l r, e.question ≠ .append l r) : written es = [] := by
  rw [written, List.filterMap_eq_nil_iff]
  rintro ⟨q, a⟩ he
  cases q with
  | append l r => exact absurd rfl (h _ he l r)
  | _ => rfl

lemma Tallies.append (h₁ : Tallies es₁ t) (h₂ : Tallies es₂ t) : Tallies (es₁ ++ es₂) t where
  status r hr := by
    rw [written_append] at hr
    exact (List.mem_append.mp hr).elim (h₁.status r) (h₂.status r)
  unmarked e he := (List.mem_append.mp he).elim (h₁.unmarked e) (h₂.unmarked e)

lemma Tallies.cons {e : Exchange} (h₁ : Tallies [e] t) (h₂ : Tallies es t) : Tallies (e :: es) t :=
  h₁.append h₂

lemma tallies_nil (t : Transaction) : Tallies [] t := ⟨by simp, by simp⟩

/-- What neither serves a commit nor is written tallies with everything. -/
lemma tallies_of_apart (h : ∀ e ∈ es, (∀ l r, e.question ≠ .append l r) ∧
    ∀ k i onePhase, e.question ≠ .commit k i onePhase) (t : Transaction) : Tallies es t where
  status r hr := by
    rw [written_of_apart fun e he => (h e he).1] at hr
    cases hr
  unmarked e he ha := by
    obtain ⟨hn, hc⟩ := h e he
    obtain ⟨q, a⟩ := e
    cases q with
    | append l r => exact absurd rfl (hn l r)
    | commit k i onePhase => exact absurd rfl (hc k i onePhase)
    | _ => cases ha

lemma tallies_of_unmarked (h : t.rollbackReason = none)
    (hs : ∀ r ∈ written es, t.status = r.decision.status) : Tallies es t :=
  ⟨hs, fun _ _ _ => h⟩

end Written

namespace Completion

variable {c : Completion} {s t : System} {es : List Exchange} {α β : Type}
  {R : System → System → Prop} {ps targets prepared : List Participant}
  {fs : List HeuristicFailure} {W : Option RollbackReason → Prop} {P : Transaction → Prop}

/-! ### What tallies -/

lemma Notifies.tallies {outcome : Status} (h : Notifies outcome es) (u : Transaction) :
    Tallies es u := by
  apply tallies_of_apart
  intro e he
  obtain ⟨x, hx⟩ := h.question e he
  rw [hx]
  simp

lemma tallies_recording {u : Transaction} {d : Decision} (pending : List ResourceId) (time : UInt64)
    (a : Except StorageError Unit) (hs : a = .ok () → u.status = d.status)
    (hr : d = .committed → u.rollbackReason = none) :
    Tallies [c.recording d pending time a] u where
  status r hr' := by
    cases a with
    | error e => cases hr'
    | ok x =>
      obtain rfl := List.mem_singleton.mp hr'
      exact hs rfl
  unmarked e he ha := by
    obtain rfl := List.mem_singleton.mp he
    refine hr ?_
    simpa [recording, Question.advances] using ha

lemma Tells.tallies (h : Tells c.rollingBack .heuristicRollback targets es fs) (u : Transaction) :
    Tallies es u := by
  apply tallies_of_apart
  intro e he
  obtain ⟨p, a, rfl⟩ := h.question e he
  simp [rollingBack]

lemma Tells.tallies_committing {onePhase : Bool} {own : ResourceError}
    (h : Tells (c.committing onePhase) own targets es fs) {u : Transaction}
    (hu : u.rollbackReason = none) : Tallies es u := by
  refine tallies_of_unmarked hu fun r hr => ?_
  rw [written_of_apart fun e he => ?_] at hr
  · cases hr
  · obtain ⟨p, a, rfl⟩ := h.question e he
    simp [committing]

lemma RollsBack.tallies (h : RollsBack c targets es fs) {u : Transaction}
    (hu : u.status = .rolledBack) : Tallies es u := by
  obtain ⟨es₁, time, a, es₂, h₁, h₂, rfl⟩ := h
  refine (h₁.tallies u).append (.cons ?_ (h₂.tallies u))
  exact tallies_recording _ _ _ (fun _ => hu) nofun

/-! ### Step by step -/

lemma ends_locked_bind {f : Transaction → α × Transaction} {k : α → Proc β} {b : β}
    (h : ((c.locked f >>= k) s).Ends R es t b) :
    ∃ s', R s s' ∧
      (k (f (s'.tx c.tx)).1 (s'.modifyTx c.tx fun x => (f x).2)).Ends R es t b := by
  rw [locked_bind] at h
  obtain ⟨s', a, es', hs, rfl, h'⟩ := Dialogue.ends_ask_iff.mp h
  exact ⟨s', hs, h'⟩

lemma runs_locked_bind {f : Transaction → α × Transaction} {k : α → Proc β} {b : β}
    {steps : List (System × System)} (h : ((c.locked f >>= k) s).Runs R es steps (.done t b)) :
    ∃ s' steps', R s s' ∧
      steps = (s', (k (f (s'.tx c.tx)).1 (s'.modifyTx c.tx fun x => (f x).2)).system) :: steps' ∧
      (k (f (s'.tx c.tx)).1 (s'.modifyTx c.tx fun x => (f x).2)).Runs R es steps' (.done t b) := by
  rw [locked_bind] at h
  obtain ⟨s', a, es', steps', hs, rfl, rfl, h'⟩ := Dialogue.runs_ask_iff.mp h
  exact ⟨s', steps', hs, rfl, h'⟩

/-- Where a part of a completion ends. -/
lemma Proceeds.ends {x : Proc α} {Q : α → Transaction → Prop} (hx : c.Proceeds P x Q)
    (hs : c.tx < s.transactions.size) (hp : P (s.tx c.tx)) {a : α}
    (h : (x s).Ends (System.Spares c.tx) es t a) : c.tx < t.transactions.size ∧ Q a (t.tx c.tx) :=
  (hx.continues s hs hp).ends h

/-- One part of a completion comes to its end, and then the other. -/
lemma Proceeds.split {x : Proc α} {f : α → Proc β} {Q : α → Transaction → Prop}
    (hx : c.Proceeds P x Q) (hs : c.tx < s.transactions.size) (hp : P (s.tx c.tx)) {b : β}
    (h : ((x >>= f) s).Ends (System.Spares c.tx) es t b) :
    ∃ es₁ a s₁ es₂, es = es₁ ++ es₂ ∧ x.Says es₁ a ∧ c.tx < s₁.transactions.size ∧
      Q a (s₁.tx c.tx) ∧ (f a s₁).Ends (System.Spares c.tx) es₂ t b := by
  obtain ⟨es₁, s₁, a, es₂, h₁, h₂, rfl⟩ := Dialogue.ends_bind_iff.mp h
  obtain ⟨hs₁, hq⟩ := hx.ends hs hp h₁
  exact ⟨es₁, a, s₁, es₂, rfl, ⟨_, _, _, h₁⟩, hs₁, hq, h₂⟩

/-- The same, if the first part says nothing. -/
lemma Proceeds.pass {x : Proc α} {f : α → Proc β} {Q : α → Transaction → Prop}
    (hx : c.Proceeds P x Q) (hq : x.Quiet) (hs : c.tx < s.transactions.size) (hp : P (s.tx c.tx))
    {b : β} (h : ((x >>= f) s).Ends (System.Spares c.tx) es t b) :
    ∃ a s₁, c.tx < s₁.transactions.size ∧ Q a (s₁.tx c.tx) ∧
      (f a s₁).Ends (System.Spares c.tx) es t b := by
  obtain ⟨es₁, a, s₁, es₂, rfl, h₁, hs₁, hq₁, h₂⟩ := hx.split hs hp h
  rw [hq es₁ a h₁]
  exact ⟨a, s₁, hs₁, hq₁, h₂⟩

/-- The same, if the first part is a question. -/
lemma ends_ask {q : Question} {f : q.Answer → Proc β} (hP : Stable P) (hq : q ≠ .turn)
    (hs : c.tx < s.transactions.size) (hp : P (s.tx c.tx)) {b : β}
    (h : ((Proc.ask q >>= f) s).Ends (System.Spares c.tx) es t b) :
    ∃ a s₁ es₁, es = ⟨q, a⟩ :: es₁ ∧ c.tx < s₁.transactions.size ∧ P (s₁.tx c.tx) ∧
      (f a s₁).Ends (System.Spares c.tx) es₁ t b := by
  obtain ⟨es₁, a, s₁, es₂, rfl, h₁, hs₁, hp₁, h₂⟩ := (goes_asked hP.noted q).unnoted.split hs hp h
  rw [Proc.says_ask h₁, Exchange.note_of_ne hq]
  exact ⟨a, s₁, es₂, rfl, hs₁, hp₁, h₂⟩

/-! ### Rolling back -/

/-- Everybody who takes part at the end is told to roll back. -/
lemma ends_rollBackAll {u : Unit} (hP : Stable P) (hu : ∀ t, P t → Undoable W t)
    (hs : c.tx < s.transactions.size) (hp : P (s.tx c.tx))
    (h : (c.rollBackAll s).Ends (System.Spares c.tx) es t u) :
    RolledBack W (t.tx c.tx) ∧ ∃ fs, RollsBack c (t.tx c.tx).participants es fs := by
  obtain ⟨s', hs', h'⟩ := ends_locked_bind h
  have hsize : c.tx < s'.transactions.size := hs.trans_le hs'.size_le
  have hheld := ((hu _ (hP.keeps hp (hs'.undisturbed hs))).held c {}).2
  have hproc : c.Proceeds (Held .rollingBack W (s'.tx c.tx).participants)
      (discard (c.rollBackAt (s'.tx c.tx).participants))
      fun _ => Over .rolledBack W (s'.tx c.tx).participants :=
    (goes_rollBackAt _).discard.unnoted
  obtain ⟨-, hover⟩ := hproc.ends (by rw [System.size_modifyTx]; exact hsize)
    (by rw [System.tx_modifyTx_self _ hsize]; exact hheld) h'
  obtain ⟨fs, hfs⟩ := Proc.Says.discard ⟨_, _, _, h'⟩
  rw [RolledBack, hover.participants]
  exact ⟨hover, fs, says_rollBackAt hfs⟩

/-- A marked transaction is rolled back for the reason that it is marked with. -/
lemma ends_rollBackMarked {e : TxError} {why : RollbackReason} (hs : c.tx < s.transactions.size)
    (hp : Held .markedRollback (· = some why) ps (s.tx c.tx))
    (h : (c.rollBackMarked s).Ends (System.Spares c.tx) es t e) :
    RolledBack (· = some why) (t.tx c.tx) ∧ e = .rollback c.id why none ∧
      ∃ fs, RollsBack c (t.tx c.tx).participants es fs := by
  have hP := stable_held (s := .markedRollback) (by simp [Status.stage]) (· = some why) ps
  have hu : ∀ t, Held .markedRollback (· = some why) ps t → Undoable (· = some why) t :=
    fun _ h => h.undoable (by simp [Status.next])
  have hcurrent := (goes_current (c := c) (hP.noted (b := false) (n := 0))).proceeds
    (fun _ hp => ⟨{}, rfl, rfl, hp⟩) fun _ _ _ h => And.intro h.1.holds h.2.holds
  obtain ⟨now, s₁, hs₁, ⟨hnow, hp₁⟩, h₁⟩ := hcurrent.pass (quiet_current c) hs hp h
  obtain ⟨es₁, s₂, u, es₂, h₂, h₃, rfl⟩ := Dialogue.ends_bind_iff.mp h₁
  obtain ⟨rfl, rfl, rfl⟩ := Dialogue.ends_done_iff.mp h₃
  obtain ⟨hr, hfs⟩ := ends_rollBackAll hP hu hs₁ hp₁ h₂
  rw [List.append_nil]
  exact ⟨hr, by simp [Transaction.reason, hnow.reason], hfs⟩

/-! ### Committing without a vote -/

/-- A commit without a vote, and the status that it leaves. -/
inductive Direct (c : Completion) :
    List Participant → List Exchange → Except TxError Unit → Status → Prop
  | nobody {es : List Exchange} (time : UInt64) (a : Except StorageError Unit)
      (h : Notifies .committed es) :
    Direct c [] (c.recording .committed [] time a :: es) (.ok ()) .committed
  | committed {p : Participant} {x : Except ResourceError Unit} {es : List Exchange} (time : UInt64)
      (a : Except StorageError Unit) (hx : x = .ok () ∨ x = .error .heuristicCommit)
      (h : Notifies .committed es) :
    Direct c [p] (c.committing true p x :: c.recording .committed [] time a :: es) (.ok ()) .committed
  | mixed {p : Participant} {es : List Exchange} (time : UInt64) (a : Except StorageError Unit)
      (h : Notifies .committed es) :
    Direct c [p]
      (c.committing true p (.error .heuristicMixed) :: c.recording .committed [] time a :: es)
      (.error (.heuristicMixed c.id [⟨p.id, .heuristicMixed⟩])) .committed
  | failed {p : Participant} {e : ResourceError} {es : List Exchange} (time : UInt64)
      (a : Except StorageError Unit) (he : e ≠ .heuristicCommit) (he' : e ≠ .heuristicMixed)
      (h : Notifies .rolledBack es) :
    Direct c [p] (c.committing true p (.error e) :: c.recording .rolledBack [] time a :: es)
      (.error (.rollback c.id (.onePhaseFailed p.id) (some e))) .rolledBack

/-- The outcome is recorded. -/
lemma ends_record {d : Decision} {pending : List ResourceId} {k : Unit → Proc α} {b : α}
    (hP : Stable P) (hs : c.tx < s.transactions.size) (hp : P (s.tx c.tx))
    (h : ((c.recordOutcome d pending >>= k) s).Ends (System.Spares c.tx) es t b) :
    ∃ time a s₁ es₁, es = c.recording d pending time a :: es₁ ∧ c.tx < s₁.transactions.size ∧
      P (s₁.tx c.tx) ∧ (k () s₁).Ends (System.Spares c.tx) es₁ t b := by
  obtain ⟨es₁, u, s₁, es₂, rfl, h₁, hs₁, hp₁, h₂⟩ :=
    (goes_recordOutcome hP.noted d pending).unnoted.split hs hp h
  obtain ⟨time, a, rfl⟩ := says_recordOutcome h₁
  exact ⟨time, a, s₁, es₂, rfl, hs₁, hp₁, h₂⟩

/-- What is known of a participant is noted, and the outcome is recorded. -/
lemma ends_noted {p : Participant} {q : ResourceStatus} {d : Decision} {pending : List ResourceId}
    {k : Unit → Proc α} {b : α} (hP : Stable P) (hs : c.tx < s.transactions.size)
    (hp : P (s.tx c.tx))
    (h : ((do c.setResourceStatus p q; c.recordOutcome d pending >>= k) s).Ends
      (System.Spares c.tx) es t b) :
    ∃ time a s₁ es₁, es = c.recording d pending time a :: es₁ ∧ c.tx < s₁.transactions.size ∧
      P (s₁.tx c.tx) ∧ (k () s₁).Ends (System.Spares c.tx) es₁ t b := by
  obtain ⟨_, s₁, hs₁, hp₁, h₁⟩ :=
    (goes_setResourceStatus hP.noted p q).unnoted.pass (quiet_setResourceStatus c p q) hs hp h
  exact ends_record hP hs₁ hp₁ h₁

/-- The completion is finished, and that is the end. -/
lemma ends_finish {held outcome : Status} {a b : α} (hn : outcome ∈ held.next)
    (ho : outcome = .rolledBack ∨ outcome = .committed ∧ ∀ why, ¬W (some why))
    (hs : c.tx < s.transactions.size) (hp : Held held W ps (s.tx c.tx))
    (h : ((do c.finish outcome; return a) s).Ends (System.Spares c.tx) es t b) :
    b = a ∧ Notifies outcome es ∧ Over outcome W ps (t.tx c.tx) := by
  obtain ⟨es₁, u, s₁, es₂, rfl, h₁, -, hover, h₂⟩ := (goes_finish hn ho).unnoted.split hs hp h
  obtain ⟨rfl, rfl, rfl⟩ := Dialogue.ends_done_iff.mp h₂
  rw [List.append_nil]
  exact ⟨rfl, says_finish h₁, hover⟩

lemma ends_commitEmpty {x : Except TxError Unit} (hs : c.tx < s.transactions.size)
    (hp : Committing ps (s.tx c.tx)) (h : (c.commitEmpty s).Ends (System.Spares c.tx) es t x) :
    Direct c [] es x (t.tx c.tx).status ∧ Concluded Unmarked ps (t.tx c.tx) := by
  obtain ⟨time, a, s₁, es, rfl, hs₁, hp₁, h₁⟩ := ends_record (stable_committing ps) hs hp h
  obtain ⟨rfl, hn, hover⟩ :=
    ends_finish (by simp [Status.next]) (.inr ⟨rfl, not_unmarked⟩) hs₁ hp₁ h₁
  refine ⟨?_, hover.concluded⟩
  rw [hover.status]
  exact .nobody time a hn

lemma ends_commitOnePhase {p : Participant} {x : Except TxError Unit}
    (hs : c.tx < s.transactions.size) (hp : Committing ps (s.tx c.tx))
    (h : (c.commitOnePhase p s).Ends (System.Spares c.tx) es t x) :
    Direct c [p] es x (t.tx c.tx).status ∧ Concluded Unmarked ps (t.tx c.tx) := by
  have hP := stable_committing ps
  have hnext : Status.committed ∈ Status.committing.next := by simp [Status.next]
  have hcommitted : Status.committed = .rolledBack ∨
      Status.committed = .committed ∧ ∀ why, ¬Unmarked (some why) :=
    .inr ⟨rfl, not_unmarked⟩
  obtain ⟨answer, s₁, es, rfl, hs₁, hp₁, h₁⟩ := ends_ask hP (by simp) hs hp h
  -- whatever the only participant answers, what follows is the record and the end
  split at h₁
  next =>
    obtain ⟨time, a, s₂, es, rfl, hs₂, hp₂, h₂⟩ := ends_noted hP hs₁ hp₁ h₁
    obtain ⟨rfl, hn, hover⟩ := ends_finish hnext hcommitted hs₂ hp₂ h₂
    refine ⟨?_, hover.concluded⟩
    rw [hover.status]
    exact .committed time a (.inl rfl) hn
  next =>
    obtain ⟨time, a, s₂, es, rfl, hs₂, hp₂, h₂⟩ := ends_noted hP hs₁ hp₁ h₁
    obtain ⟨rfl, hn, hover⟩ := ends_finish hnext hcommitted hs₂ hp₂ h₂
    refine ⟨?_, hover.concluded⟩
    rw [hover.status]
    exact .committed time a (.inr rfl) hn
  next =>
    obtain ⟨time, a, s₂, es, rfl, hs₂, hp₂, h₂⟩ := ends_noted hP hs₁ hp₁ h₁
    obtain ⟨_, s₃, hs₃, hp₃, h₃⟩ :=
      (goes_countHeuristic hP).unnoted.pass (quiet_countHeuristic c) hs₂ hp₂ h₂
    obtain ⟨rfl, hn, hover⟩ := ends_finish hnext hcommitted hs₃ hp₃ h₃
    refine ⟨?_, hover.concluded⟩
    rw [hover.status]
    exact .mixed time a hn
  next e hcommit hmixed =>
    obtain ⟨time, a, s₂, es, rfl, hs₂, hp₂, h₂⟩ := ends_noted hP hs₁ hp₁ h₁
    obtain ⟨rfl, hn, hover⟩ := ends_finish (by simp [Status.next]) (.inl rfl) hs₂ hp₂ h₂
    refine ⟨?_, hover.concluded⟩
    rw [hover.status]
    exact .failed time a (fun he => hcommit (he ▸ rfl)) (fun he => hmixed (he ▸ rfl)) hn

/-! ### Committing after a vote -/

lemma ends_carryOut {lastAgent : Option Participant} {x : Except TxError Unit}
    (hs : c.tx < s.transactions.size) (hp : Prepared ps (s.tx c.tx))
    (h : (c.carryOut lastAgent prepared s).Ends (System.Spares c.tx) es t x) :
    CarriesOut c lastAgent prepared es x ∧ Concluded Unmarked ps (t.tx c.tx) ∧
      Tallies es (t.tx c.tx) := by
  have hP := stable_prepared ps
  have hconcluded := ((goes_carryOut lastAgent prepared).unnoted.ends hs hp h).2
  have hnone : (t.tx c.tx).rollbackReason = none := hconcluded.reason
  have hcommitted : Status.committed = .rolledBack ∨
      Status.committed = .committed ∧ ∀ why, ¬Unmarked (some why) :=
    .inr ⟨rfl, not_unmarked⟩
  refine ⟨says_carryOut ⟨_, _, _, h⟩, hconcluded, ?_⟩
  obtain ⟨now, s₀, hs₀, hp₀, h₀⟩ :=
    (goes_view (P := Noted false 0 (Prepared ps)) _).unnoted.pass (Proc.quiet_view _) hs hp h
  obtain ⟨answer, s₁, es₁, rfl, hs₁, hp₁, h₁⟩ := ends_ask hP (by simp) hs₀ hp₀ h₀
  -- if the decision is written, the transaction is committed in the end
  have hdecision : ∀ a, (a = .ok () → (t.tx c.tx).status = .committed) →
      Tallies [c.recording .committed (prepared.map (·.id)) now a] (t.tx c.tx) :=
    fun a ha => tallies_recording _ now a ha fun _ => hnone
  split at h₁
  next e =>
    obtain ⟨es₂, e', s₂, es₃, rfl, ha, -, hover, h₂⟩ :=
      (goes_abortUnwritten prepared lastAgent e).unnoted.split hs₁ hp₁ h₁
    obtain ⟨rfl, rfl, rfl⟩ := Dialogue.ends_done_iff.mp h₂
    obtain ⟨fs, hfs, -⟩ := says_abortUnwritten ha
    rw [List.append_nil]
    exact .cons (hdecision _ nofun) (hfs.tallies hover.status)
  next =>
    split at h₁
    next =>
      obtain ⟨-, hn, hover⟩ := ends_finish (by simp [Status.next]) hcommitted hs₁ hp₁ h₁
      exact .cons (hdecision _ fun _ => hover.status) (hn.tallies _)
    next =>
      obtain ⟨_, s₂, hs₂, hp₂, h₂⟩ :=
        goes_setCommitting.unnoted.pass (quiet_setStatus c _) hs₁ hp₁ h₁
      obtain ⟨es₃, fs, s₃, es₄, rfl, hc, hs₃, hp₃, h₃⟩ :=
        (goes_commitEach (stable_committing ps).noted prepared).unnoted.split hs₂ hp₂ h₂
      obtain ⟨time, a, s₄, es₅, rfl, hs₄, hp₄, h₄⟩ := ends_record (stable_committing ps) hs₃ hp₃ h₃
      obtain ⟨es₆, _, s₅, es₇, rfl, hf, hs₅, hover, h₅⟩ :=
        (goes_finish (by simp [Status.next]) hcommitted).unnoted.split hs₄ hp₄ h₄
      have hreport : es₇ = [] ∧ Over .committed Unmarked ps (t.tx c.tx) := by
        split at h₅
        next =>
          obtain ⟨rfl, rfl, -⟩ := Dialogue.ends_done_iff.mp h₅
          exact ⟨rfl, hover⟩
        next =>
          obtain ⟨_, s₆, hs₆, hover, h₆⟩ := (goes_countHeuristic (stable_over ..)).unnoted.pass
            (quiet_countHeuristic c) hs₅ hover h₅
          obtain ⟨rfl, rfl, -⟩ := Dialogue.ends_done_iff.mp h₆
          exact ⟨rfl, hover⟩
      obtain ⟨rfl, hover⟩ := hreport
      refine .cons (hdecision _ fun _ => hover.status) (.append ?_ (.cons ?_ (.append ?_
        (tallies_nil _))))
      · exact (says_commitEach hc).tallies_committing hnone
      · exact tallies_recording _ time a (fun _ => hover.status) fun _ => hnone
      · exact (says_finish hf).tallies _

lemma Decides.tallies {lastAgent : Option Participant} {x : Except TxError Unit}
    (h : Decides c prepared lastAgent es x) {u : Transaction} (hr : u.rollbackReason = none)
    (hu : ∀ e, x = .error e → u.status = .rolledBack) : Tallies es u := by
  have hlast : ∀ p a, Tallies [c.committing true p a] u :=
    fun p a => tallies_of_unmarked hr (by simp [written, committing, Exchange.written?])
  cases h with
  | nobody => exact tallies_nil u
  | commit _ => exact hlast _ _
  | mixed h => exact .cons (hlast _ _) (h.tallies (hu _ rfl))
  | failed _ _ h => exact .cons (hlast _ _) (h.tallies (hu _ rfl))

lemma Votes.tallies {lastAgent : Option Participant} {unvoted : List Participant}
    {x : Except TxError (List Participant)} (h : Votes c lastAgent prepared unvoted es x)
    {u : Transaction} (hu : ∀ e, x = .error e → u.status = .rolledBack) : Tallies es u := by
  have hballot : ∀ p a, Tallies [c.ballot p a] u :=
    fun p a => tallies_of_apart (by simp [ballot]) u
  induction h with
  | all => exact tallies_nil u
  | marked _ h => exact h.tallies (hu _ rfl)
  | commit _ ih => exact .cons (hballot _ _) (ih hu)
  | readOnly _ ih => exact .cons (hballot _ _) (ih hu)
  | rollback h => exact .cons (hballot _ _) (h.tallies (hu _ rfl))
  | failed _ h => exact .cons (hballot _ _) (h.tallies (hu _ rfl))

/-- Who has voted is no matter of the transaction. -/
lemma Voting.balloting {u : Transaction} (h : Voting ps u) (c : Completion)
    (unvoted : List Participant) : ∃ g, c.Balloting ps unvoted g u := by
  refine ⟨{ said := ps.map fun p => c.ballot p (.ok .commit) }, ⟨rfl, rfl, h⟩, fun p hp _ => ?_⟩
  exact .inr (.inl (List.mem_map_of_mem hp))

lemma proceeds_collectVotes (lastAgent : Option Participant) (prepared unvoted : List Participant) :
    c.Proceeds (Voting ps) (c.collectVotes lastAgent prepared unvoted)
      (Unless (fun _ => True) ps (Voting ps)) := by
  refine (goes_collectVotes lastAgent prepared unvoted).proceeds (fun _ h => h.balloting c unvoted)
    fun x g t h => ?_
  cases x with
  | error e => exact h.holds
  | ok prepared => exact h.noted.holds

lemma proceeds_enterPrepared :
    c.Proceeds (Voting ps) (c.locked Transaction.enterPrepared) (Closed ps) :=
  goes_enterPrepared.proceeds (fun _ h => h.balloting c []) fun _ _ _ h => h.holds

lemma ends_commitTwoPhase {x : Except TxError Unit} (hs : c.tx < s.transactions.size)
    (hp : Voting ps (s.tx c.tx))
    (h : (c.commitTwoPhase ps s).Ends (System.Spares c.tx) es t x) :
    TwoPhase c ps es x ∧ Concluded (fun _ => True) ps (t.tx c.tx) ∧ Tallies es (t.tx c.tx) := by
  refine ⟨says_commitTwoPhase ⟨_, _, _, h⟩, ((goes_commitTwoPhase ps).unnoted.ends hs hp h).2, ?_⟩
  obtain ⟨es₁, votes, s₁, es₂, rfl, hv, hs₁, hp₁, h₁⟩ :=
    (proceeds_collectVotes _ _ _).split hs hp h
  have hvotes := says_collectVotes hv
  cases votes with
  | error e =>
    obtain ⟨rfl, rfl, rfl⟩ := Dialogue.ends_done_iff.mp h₁
    exact .append (hvotes.tallies fun _ _ => hp₁.status) (tallies_nil _)
  | ok prepared =>
    refine .append (hvotes.tallies nofun) ?_
    obtain ⟨marked, s₂, hs₂, hp₂, h₂⟩ :=
      proceeds_enterPrepared.pass (quiet_locked c _) hs₁ hp₁ h₁
    cases marked with
    | some reason =>
      -- the vote is won, but a mark was left meanwhile
      obtain ⟨-, hover⟩ := (goes_aborted (α := Unit) (stable_voting ps)
        (fun _ h => h.undone) _ reason none).unnoted.ends hs₂ hp₂ h₂
      obtain ⟨fs, hfs, rfl⟩ := says_aborted ⟨_, _, _, h₂⟩
      exact hfs.tallies hover.status
    | none =>
      obtain ⟨es₃, y, s₃, es₄, rfl, hd, hs₃, hp₃, h₃⟩ :=
        (goes_commitLastAgent prepared _).unnoted.split hs₂ hp₂ h₂
      have hdecides := says_commitLastAgent hd
      cases y with
      | error e =>
        obtain ⟨rfl, rfl, rfl⟩ := Dialogue.ends_done_iff.mp h₃
        exact .append (hdecides.tallies hp₃.reason fun _ _ => hp₃.status) (tallies_nil _)
      | ok _ =>
        obtain ⟨-, hconcluded, htallies⟩ := ends_carryOut hs₃ hp₃ h₃
        exact .append (hdecides.tallies hconcluded.reason nofun) htallies

lemma Direct.tallies {x : Except TxError Unit} {u : Transaction} (h : Direct c ps es x u.status)
    (hu : u.rollbackReason = none) : Tallies es u := by
  have hfirst : ∀ p a, Tallies [c.committing true p a] u :=
    fun p a => tallies_of_unmarked hu (by simp [written, committing, Exchange.written?])
  have hrest : ∀ {d es}, u.status = d.status → ∀ time a, Notifies d.status es →
      Tallies (c.recording d [] time a :: es) u :=
    fun hs time a hn => .cons (tallies_recording _ time a (fun _ => hs) fun _ => hu)
      (hn.tallies u)
  generalize hs : u.status = status at h
  cases h with
  | nobody time a h => exact hrest (d := .committed) hs time a h
  | committed time a _ h =>
    exact .cons (hfirst _ _) (hrest (d := .committed) hs time a h)
  | mixed time a h =>
    exact .cons (hfirst _ _) (hrest (d := .committed) hs time a h)
  | failed time a _ _ h =>
    exact .cons (hfirst _ _) (hrest (d := .rolledBack) hs time a h)

/-- A commit goes by a vote unless its participants need none. -/
lemma ends_commitAll {x : Except TxError Unit} (hs : c.tx < s.transactions.size)
    (hp : Entered ps (s.tx c.tx)) (h : (c.commitAll ps s).Ends (System.Spares c.tx) es t x) :
    Transaction.isDirect ps = true ∧ Direct c ps es x (t.tx c.tx).status ∧
      Concluded Unmarked ps (t.tx c.tx) ∨
    Transaction.isDirect ps = false ∧ TwoPhase c ps es x ∧
      Concluded (fun _ => True) ps (t.tx c.tx) ∧ Tallies es (t.tx c.tx) := by
  match ps with
  | [] => exact .inl ⟨rfl, ends_commitEmpty hs hp h⟩
  | [p] =>
    cases htwo : p.twoPhase with
    | true =>
      simp only [Entered, Transaction.isDirect, htwo, if_true] at hp
      rw [commitAll, if_pos htwo] at h
      exact .inl ⟨htwo, ends_commitOnePhase hs hp h⟩
    | false =>
      simp only [Entered, Transaction.isDirect, htwo] at hp
      rw [commitAll, if_neg (by simp [htwo])] at h
      exact .inr ⟨htwo, ends_commitTwoPhase hs hp h⟩
  | p :: q :: ps => exact .inr ⟨rfl, ends_commitTwoPhase hs hp h⟩

/-! ### Whether there was a vote -/

/-- The vote began: a step found the transaction active and left it preparing. -/
def Polled (r : TxRef) (steps : List (System × System)) : Prop :=
  ∃ p ∈ steps, (p.1.tx r).status = .active ∧ (p.2.tx r).status = .preparing

instance (r : TxRef) (steps : List (System × System)) : Decidable (Polled r steps) :=
  inferInstanceAs (Decidable (∃ p ∈ steps, _))

variable {steps : List (System × System)}

lemma polled_cons {r : TxRef} {p : System × System} :
    Polled r (p :: steps) ↔
      (p.1.tx r).status = .active ∧ (p.2.tx r).status = .preparing ∨ Polled r steps := by
  simp [Polled]

lemma polled_append {r : TxRef} {steps₁ steps₂ : List (System × System)} :
    Polled r (steps₁ ++ steps₂) ↔ Polled r steps₁ ∨ Polled r steps₂ := by
  simp [Polled, or_and_right, exists_or]

/-- What works on a transaction does not lead it back, and finds it taken. -/
lemma stage_le_of_runs {r : TxRef} {Q : α → System → Prop} {d d' : Dialogue α}
    (h : d.Continues (System.Spares r) (System.Works r) Q) (hr : r < d.system.transactions.size)
    (ht : (d.system.tx r).Taken) (hd : d.Runs (System.Spares r) es steps d') :
    ∀ p ∈ steps, (d.system.tx r).status.stage ≤ (p.2.tx r).status.stage ∧ (p.1.tx r).Taken := by
  induction hd with
  | refl => simp
  | @answer s s' q next a es ps d hs hrest ih =>
    obtain ⟨hw, hc⟩ := h s' a hs
    have hu : (s.tx r).Undisturbed (s'.tx r) := hs.undisturbed hr
    have hr' : r < (next s' a).system.transactions.size := by
      rw [hw.size_eq]
      exact hr.trans_le hs.size_le
    have hle : (s.tx r).status.stage ≤ ((next s' a).system.tx r).status.stage :=
      hu.grows.onward.stage.trans hw.same.onward.stage
    intro p hp
    rcases List.mem_cons.mp hp with rfl | hp
    · exact ⟨hle, (hu.keeps ht).taken ht⟩
    · obtain ⟨hp₁, hp₂⟩ := ih hc hr' hw.taken p hp
      exact ⟨hle.trans hp₁, hp₂⟩

/-- From a vote that is over, or was left out, on there is no beginning of a vote. -/
lemma not_polled_of_runs {r : TxRef} {Q : α → System → Prop} {d d' : Dialogue α}
    (h : d.Continues (System.Spares r) (System.Works r) Q) (hr : r < d.system.transactions.size)
    (ht : (d.system.tx r).Taken) (hd : d.Runs (System.Spares r) es steps d')
    (hlate : 2 ≤ (d.system.tx r).status.stage) : ¬Polled r steps := by
  rintro ⟨p, hp, -, hs⟩
  have hle := hlate.trans (stage_le_of_runs h hr ht hd p hp).1
  rw [hs] at hle
  simp [Status.stage] at hle

lemma system_runBefore (callbacks : List Synchronization) (s : System) :
    (c.runBefore callbacks s).system = s := by
  cases callbacks <;> rfl

lemma system_commitAll (ps : List Participant) (s : System) : (c.commitAll ps s).system = s := by
  have htwo : ∀ ps, (c.commitTwoPhase ps s).system = s := by
    intro ps
    unfold commitTwoPhase
    cases ps.filter (·.twoPhase) <;> rfl
  match ps with
  | [] => rfl
  | [p] =>
    rw [commitAll]
    split
    · rfl
    · exact htwo [p]
  | p :: q :: ps => exact htwo _

/-- While the callbacks run the vote does not begin. -/
lemma early_of_runs {callbacks : List Synchronization} {u : Unit} (hs : c.tx < s.transactions.size)
    (he : Early (s.tx c.tx))
    (h : (c.runBefore callbacks s).Runs (System.Spares c.tx) es steps (.done t u)) :
    ∀ p ∈ steps, Early (p.2.tx c.tx) := by
  induction callbacks generalizing s es steps with
  | nil =>
    obtain ⟨-, rfl, -⟩ := Dialogue.runs_done_iff.mp h
    simp
  | cons x xs ih =>
    obtain ⟨s₁, a, es₁, steps, hs₁, -, rfl, h₁⟩ := Dialogue.runs_ask_iff.mp h
    have hsize : c.tx < s₁.transactions.size := hs.trans_le hs₁.size_le
    have he₁ : Early (s₁.tx c.tx) := stable_early.keeps he (hs₁.undisturbed hs)
    refine List.forall_mem_cons.mpr ?_
    cases a with
    | ok _ =>
      refine ⟨?_, ih hsize he₁ h₁⟩
      change Early ((c.runBefore xs s₁).system.tx c.tx)
      rw [system_runBefore]
      exact he₁
    | error e =>
      -- a callback that fails is the last one, and marks the transaction
      obtain ⟨s₂, b, es₂, steps, hs₂, -, rfl, h₂⟩ := Dialogue.runs_ask_iff.mp h₁
      obtain ⟨-, rfl, -⟩ := Dialogue.runs_done_iff.mp h₂
      have he₂ : Early (s₂.tx c.tx) := stable_early.keeps he₁ (hs₂.undisturbed hsize)
      refine ⟨he₁, List.forall_mem_singleton.mpr ?_⟩
      change Early ((s₂.modifyTx c.tx _).tx c.tx)
      rw [System.tx_modifyTx_self _ (hsize.trans_le hs₂.size_le)]
      exact (he₂.markRollbackOnly _).2

/-! ### Outcomes -/

/-- Callbacks are asked to get ready. -/
def Readies (es : List Exchange) : Prop := ∀ e ∈ es, ∃ x, e.question = .beforeCompletion x

/-- How a completion may have come to its end: with the transaction as it is left, what was said and
what is answered. -/
inductive Outcome (c : Completion) (t : Transaction) (steps : List (System × System)) :
    Ending → List Exchange → Except TxError Unit → Prop
  | rolledBack {es : List Exchange} {fs : List HeuristicFailure} (ht : RolledBack (fun _ => True) t)
      (h : RollsBack c t.participants es fs) : Outcome c t steps .rollback es (.ok ())
  /-- Instead of a commit: the transaction was marked by the time that the callbacks were through.
  -/
  | marked {befores es : List Exchange} {fs : List HeuristicFailure} {why : RollbackReason}
      (hp : ¬Polled c.tx steps) (ht : RolledBack (· = some why) t) (hb : Readies befores)
      (h : RollsBack c t.participants es fs) :
    Outcome c t steps .commit (befores ++ es) (.error (.rollback c.id why none))
  | direct {befores es : List Exchange} {x : Except TxError Unit} (hp : ¬Polled c.tx steps)
      (hd : Transaction.isDirect t.participants = true) (ht : Concluded Unmarked t.participants t)
      (hb : Readies befores) (h : Direct c t.participants es x t.status) :
    Outcome c t steps .commit (befores ++ es) x
  | voted {befores es : List Exchange} {x : Except TxError Unit} (hp : Polled c.tx steps)
      (hd : Transaction.isDirect t.participants = false) (ht : Settled t) (hb : Readies befores)
      (h : TwoPhase c t.participants es x) (hes : Tallies es t) :
    Outcome c t steps .commit (befores ++ es) x

/-- A marked transaction is rolled back instead of committed. -/
lemma runs_rollBackMarked {x : Except TxError Unit} (hs : c.tx < s.transactions.size)
    (he : Early (s.tx c.tx)) (hm : (s.tx c.tx).status = .markedRollback)
    (h : ((Except.error <$> c.rollBackMarked : Proc (Except TxError Unit)) s).Runs
      (System.Spares c.tx) es steps (.done t x)) :
    ¬Polled c.tx steps ∧ ∃ why fs, x = .error (.rollback c.id why none) ∧
      RolledBack (· = some why) (t.tx c.tx) ∧ RollsBack c (t.tx c.tx).participants es fs := by
  constructor
  · have hproc := (Admits.marked (c := c) hm).proceeds.continues s hs he
    refine not_polled_of_runs hproc hs (.inl he.completing) h ?_
    change 2 ≤ (s.tx c.tx).status.stage
    simp [hm, Status.stage]
  · obtain ⟨why, hwhy⟩ := Option.ne_none_iff_exists'.mp (he.marks.marked hm)
    have hheld : Held .markedRollback (· = some why) (s.tx c.tx).participants (s.tx c.tx) :=
      ⟨he.completing, hm, hwhy, rfl, he.marks⟩
    obtain ⟨es₁, s₁, e, es₂, h₁, h₂, rfl⟩ := Dialogue.ends_bind_iff.mp h.leads
    obtain ⟨rfl, rfl, rfl⟩ := Dialogue.ends_done_iff.mp h₂
    obtain ⟨hr, rfl, fs, hfs⟩ := ends_rollBackMarked hs hheld h₁
    rw [List.append_nil]
    exact ⟨why, fs, rfl, hr, hfs⟩

/-- A commit of an active transaction: first the callbacks. -/
lemma outcome_commitActive {callbacks : List Synchronization} {x : Except TxError Unit}
    (hs : c.tx < s.transactions.size) (he : Early (s.tx c.tx))
    (h : (c.commitActive callbacks s).Runs (System.Spares c.tx) es steps (.done t x)) :
    Outcome c (t.tx c.tx) steps .commit es x := by
  obtain ⟨befores, steps₁, s₁, _, es, steps₂, h₁, h₂, rfl, rfl⟩ :=
    Dialogue.Runs.bind (by intros; rfl) h
  have hb : Readies befores := says_runBefore ⟨_, _, _, h₁.leads⟩
  have hearly := early_of_runs hs he h₁
  have hfirst : ¬Polled c.tx steps₁ := by
    rintro ⟨p, hp, -, hs⟩
    rcases (hearly p hp).status with h | h <;> simp [h] at hs
  obtain ⟨hs₁, he₁⟩ := (goes_runBefore callbacks).unnoted.ends hs he h₁.leads
  obtain ⟨s₂, steps₃, hs₂, rfl, h₃⟩ := runs_locked_bind (f := Transaction.enterCommit) h₂
  have hsize : c.tx < s₂.transactions.size := hs₁.trans_le hs₂.size_le
  have hsize' : ∀ f, c.tx < (s₂.modifyTx c.tx f).transactions.size := by
    intro f
    rw [System.size_modifyTx]
    exact hsize
  have he₂ : Early (s₂.tx c.tx) := stable_early.keeps he₁ (hs₂.undisturbed hs₁)
  have hentered := System.tx_modifyTx_self (fun x => x.enterCommit.2) hsize
  rcases he₂.enterCommit with ⟨hm, henter⟩ | ⟨ha, t', henter, -, hin, hstatus⟩
  · rw [henter] at h₃ hentered ⊢
    obtain ⟨hnot, why, fs, rfl, hr, hfs⟩ := runs_rollBackMarked (hsize' _)
      (by rw [hentered]; exact he₂) (by rw [hentered]; exact hm) h₃
    refine .marked ?_ hr hb hfs
    rw [polled_append, polled_cons]
    rintro (hp | ⟨hp, -⟩ | hp)
    · exact hfirst hp
    · simp [hm] at hp
    · exact hnot hp
  · rw [henter] at h₃ hentered ⊢
    have hin' : Entered (s₂.tx c.tx).participants
        ((s₂.modifyTx c.tx fun x => x.enterCommit.2).tx c.tx) := by
      rw [hentered]
      exact hin
    rcases ends_commitAll (hsize' _) hin' h₃.leads with ⟨hd, hx, hc⟩ | ⟨hd, hx, hc, hes⟩
    · rw [if_pos hd] at hstatus
      -- past the vote: what commits directly does not come back to it
      have hnot : ¬Polled c.tx steps₃ := by
        refine not_polled_of_runs ((goes_commitAll _).unnoted.continues _ (hsize' _) hin') ?_ ?_
          h₃ ?_
        · rw [system_commitAll]
          exact hsize' _
        · rw [system_commitAll]
          exact hin'.taken
        · rw [system_commitAll, hentered]
          simp [hstatus, Status.stage]
      rw [← hc.participants] at hd hx hc
      refine .direct ?_ hd hc hb hx
      rw [polled_append, polled_cons]
      rintro (hp | ⟨-, hp⟩ | hp)
      · exact hfirst hp
      · change ((c.commitAll _ _).system.tx c.tx).status = .preparing at hp
        rw [system_commitAll, hentered, hstatus] at hp
        cases hp
      · exact hnot hp
    · rw [if_neg (by simp [hd])] at hstatus
      rw [← hc.participants] at hd
      refine .voted ?_ hd hc.settled hb (hc.participants ▸ hx) hes
      rw [polled_append, polled_cons]
      refine .inr (.inl ⟨ha, ?_⟩)
      change ((c.commitAll _ _).system.tx c.tx).status = .preparing
      rw [system_commitAll, hentered, hstatus]

namespace Outcome

variable {u u' : Transaction} {how : Ending} {x : Except TxError Unit}

lemma settled (h : Outcome c u steps how es x) : Settled u := by
  cases h with
  | rolledBack ht _ => exact ht.settled
  | marked _ ht _ _ => exact ht.settled
  | direct _ _ ht _ _ => exact ht.settled
  | voted _ _ ht _ _ _ => exact ht

/-- Of the steps it matters only whether there was a vote. -/
lemma congr {steps' : List (System × System)} (h : Outcome c u steps how es x)
    (hs : Polled c.tx steps' ↔ Polled c.tx steps) : Outcome c u steps' how es x := by
  cases h with
  | rolledBack ht h => exact .rolledBack ht h
  | marked hp ht hb h => exact .marked (mt hs.mp hp) ht hb h
  | direct hp hd ht hb h => exact .direct (mt hs.mp hp) hd ht hb h
  | voted hp hd ht hb h hes => exact .voted (hs.mpr hp) hd ht hb h hes

/-- What bystanders do later does not matter. -/
lemma keeps (h : Outcome c u steps how es x) (hu : u.Undisturbed u') :
    Outcome c u' steps how es x := by
  have hsettled := (stable_concluded ..).keeps h.settled hu
  have hps := hsettled.participants
  have hk := (hu.keeps (stable_settled.taken h.settled)).ended h.settled.ended
  cases h with
  | rolledBack ht h => exact .rolledBack ((stable_rolledBack _).keeps ht hu) (hps ▸ h)
  | marked hp ht hb h => exact .marked hp ((stable_rolledBack _).keeps ht hu) hb (hps ▸ h)
  | direct hp hd ht hb h =>
    refine .direct hp (hps ▸ hd) ?_ hb ?_
    · rw [hps]
      exact (stable_concluded ..).keeps ht hu
    · rw [hps, hk]
      exact h
  | voted hp hd ht hb h hes =>
    refine .voted hp (hps ▸ hd) hsettled.settled hb (hps ▸ h) ?_
    have hreason := hu.grows.onward.late ht.marks ht.ended.stage_le
    exact ⟨fun r hr => hk.trans (hes.status r hr),
      fun e he ha => hreason.trans (hes.unmarked e he ha)⟩

lemma tallies (h : Outcome c u steps how es x) : Tallies es u := by
  have hbefores : ∀ {befores}, Readies befores → Tallies befores u := by
    intro befores hb
    apply tallies_of_apart
    intro e he
    obtain ⟨y, hy⟩ := hb e he
    simp [hy]
  cases h with
  | rolledBack ht h => exact h.tallies ht.status
  | marked _ ht hb h => exact (hbefores hb).append (h.tallies ht.status)
  | direct _ _ ht hb h => exact (hbefores hb).append (h.tallies ht.reason)
  | voted _ _ _ hb _ hes => exact (hbefores hb).append hes

end Outcome

end Completion

open Completion (Early Outcome Polled)

/-- Whatever was admitted comes to one of the outcomes. -/
lemma Admits.outcome {c : Completion} {s t : System} {how : Ending}
    {y : Proc (Except TxError Unit)} {es : List Exchange} {steps : List (System × System)}
    {x : Except TxError Unit} (hy : Admits c (s.tx c.tx) how y) (hs : c.tx < s.transactions.size)
    (he : Early (s.tx c.tx)) (h : (y s).Runs (System.Spares c.tx) es steps (.done t x)) :
    Outcome c (t.tx c.tx) steps how es x := by
  cases hy with
  | commit _ => exact Completion.outcome_commitActive hs he h
  | marked hm =>
    obtain ⟨hnot, why, fs, rfl, hr, hfs⟩ := Completion.runs_rollBackMarked hs he hm h
    have hb : Completion.Readies [] := by simp [Completion.Readies]
    have houtcome := Outcome.marked hnot hr hb hfs
    exact houtcome
  | rollback =>
    obtain ⟨es₁, s₁, _, es₂, h₁, h₂, rfl⟩ := Dialogue.ends_bind_iff.mp h.leads
    obtain ⟨rfl, rfl, rfl⟩ := Dialogue.ends_done_iff.mp h₂
    obtain ⟨hr, fs, hfs⟩ :=
      Completion.ends_rollBackAll Completion.stable_early (fun _ h => h.undoable) hs he h₁
    rw [List.append_nil]
    exact .rolledBack hr hfs

end TwoPhaseCommit
