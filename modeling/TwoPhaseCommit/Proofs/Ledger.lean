import TwoPhaseCommit.Proofs.Requests

/-!
# The log and the outcome agree

What a completion writes to the log is set against what it was told by those that it called. The
records agree with the final status, the last one keeps exactly those pending that did not
acknowledge the outcome, and an earlier one keeps at least those. Each write may fail on its own.
-/

namespace TwoPhaseCommit

open Completion (Outcome)

/-! ### What is left to be done -/

/-- The resource that was told the outcome and did not acknowledge it, by success or by having done
it on its own. Who commits in one phase decides, and so has nothing to acknowledge. -/
def Exchange.unconfirmed? : Exchange → Option ResourceId
  | ⟨.commit k _ false, .error e⟩ => if e = .heuristicCommit then none else some k.id
  | ⟨.rollback k _, .error e⟩ => if e = .heuristicRollback then none else some k.id
  | _ => none

/-- The resources that did not acknowledge, in the order of the calls. -/
def unconfirmed (es : List Exchange) : List ResourceId := es.filterMap (·.unconfirmed?)

/-- A write that failed. -/
def Exchange.failsToWrite : Exchange → Bool
  | ⟨.append .., .error _⟩ => true
  | _ => false

@[simp] lemma unconfirmed_append (es₁ es₂ : List Exchange) :
    unconfirmed (es₁ ++ es₂) = unconfirmed es₁ ++ unconfirmed es₂ :=
  List.filterMap_append

lemma unconfirmed_cons (e : Exchange) (es : List Exchange) :
    unconfirmed (e :: es) = e.unconfirmed?.toList ++ unconfirmed es := by
  unfold unconfirmed
  rw [List.filterMap_cons]
  cases e.unconfirmed? <;> rfl

/-- Exchanges that write nothing and leave nothing to be done. -/
structure Neutral (es : List Exchange) : Prop where
  written : written es = []
  unconfirmed : unconfirmed es = []

/-- The books on what is left to be done. -/
structure Books (es : List Exchange) : Prop where
  few : (written es).length ≤ 2
  /-- There are two records of a commit only. -/
  twice : (written es).length = 2 → ∀ r ∈ written es, r.decision = .committed
  covers : ∀ r ∈ written es, unconfirmed es ⊆ r.pending
  last : (∀ e ∈ es, e.failsToWrite = false) →
    ∃ r, (written es).getLast? = some r ∧ r.pending = unconfirmed es

section Books

variable {es es₁ es₂ : List Exchange}

lemma neutral_nil : Neutral [] := ⟨rfl, rfl⟩

lemma Neutral.append (h₁ : Neutral es₁) (h₂ : Neutral es₂) : Neutral (es₁ ++ es₂) :=
  ⟨by rw [written_append, h₁.written, h₂.written, List.append_nil],
    by rw [unconfirmed_append, h₁.unconfirmed, h₂.unconfirmed, List.append_nil]⟩

lemma Neutral.cons {e : Exchange} (h : Neutral [e]) (h' : Neutral es) : Neutral (e :: es) :=
  h.append h'

lemma neutral_of_forall (h : ∀ e ∈ es, e.written? = none ∧ e.unconfirmed? = none) : Neutral es :=
  ⟨List.filterMap_eq_nil_iff.mpr fun e he => (h e he).1,
    List.filterMap_eq_nil_iff.mpr fun e he => (h e he).2⟩

/-- What is neutral is of no account. -/
lemma Books.after (h : Books es₂) (h₁ : Neutral es₁) : Books (es₁ ++ es₂) := by
  have hw : written (es₁ ++ es₂) = written es₂ := by
    rw [written_append, h₁.written, List.nil_append]
  have hu : unconfirmed (es₁ ++ es₂) = unconfirmed es₂ := by
    rw [unconfirmed_append, h₁.unconfirmed, List.nil_append]
  refine ⟨?_, ?_, ?_, fun hall => ?_⟩
  · rw [hw]
    exact h.few
  · rw [hw]
    exact h.twice
  · rw [hw, hu]
    exact h.covers
  · rw [hw, hu]
    exact h.last fun e he => hall e (List.mem_append_right _ he)

lemma Books.after_one {e : Exchange} (h : Books es) (h₁ : Neutral [e]) : Books (e :: es) :=
  h.after h₁

end Books

namespace Completion

variable {c : Completion} {ps targets prepared : List Participant} {es es₁ es₂ : List Exchange}
  {fs : List HeuristicFailure}

lemma Notifies.neutral {outcome : Status} (h : Notifies outcome es) : Neutral es := by
  apply neutral_of_forall
  rintro ⟨q, a⟩ he
  obtain ⟨x, rfl⟩ := h.question _ he
  exact ⟨rfl, rfl⟩

lemma Readies.neutral (h : Readies es) : Neutral es := by
  apply neutral_of_forall
  rintro ⟨q, a⟩ he
  obtain ⟨x, rfl⟩ := h _ he
  exact ⟨rfl, rfl⟩

lemma neutral_ballot (p : Participant) (a : Except ResourceError Vote) :
    Neutral [c.ballot p a] := by
  apply neutral_of_forall
  simp [ballot, Exchange.written?, Exchange.unconfirmed?]

lemma neutral_committing (p : Participant) (a : Except ResourceError Unit) :
    Neutral [c.committing true p a] := by
  apply neutral_of_forall
  simp [committing, Exchange.written?, Exchange.unconfirmed?]

lemma neutral_recording (d : Decision) (pending : List ResourceId) (time : UInt64)
    (e : StorageError) :
    Neutral [c.recording d pending time (.error e)] := by
  apply neutral_of_forall
  simp [recording, Exchange.written?, Exchange.unconfirmed?]

/-- Those who fail to acknowledge are the failures, and nothing is written meanwhile. -/
lemma Tells.unconfirmed {tell : Participant → Except ResourceError Unit → Exchange}
    {own : ResourceError} (h : Tells tell own targets es fs)
    (hok : ∀ p, (tell p (.ok ())).unconfirmed? = none)
    (herror : ∀ p e, (tell p (.error e)).unconfirmed? = if e = own then none else some p.id) :
    unconfirmed es = fs.map (·.resource) := by
  induction h with
  | nil => rfl
  | @confirmed p ps a es fs ha _ ih =>
    have hnone : (tell p a).unconfirmed? = none := by
      rcases ha with rfl | rfl
      · exact hok p
      · rw [herror, if_pos rfl]
    rw [unconfirmed_cons, hnone, ih]
    rfl
  | @failed p ps e es fs he _ ih =>
    rw [unconfirmed_cons, herror, if_neg he, ih]
    rfl

lemma Tells.unconfirmed_rollingBack (h : Tells c.rollingBack .heuristicRollback targets es fs) :
    TwoPhaseCommit.unconfirmed es = fs.map (·.resource) :=
  h.unconfirmed (fun _ => rfl) fun _ _ => rfl

lemma Tells.unconfirmed_committing (h : Tells (c.committing false) .heuristicCommit targets es fs) :
    TwoPhaseCommit.unconfirmed es = fs.map (·.resource) :=
  h.unconfirmed (fun _ => rfl) fun _ _ => rfl

lemma Tells.written_rollingBack (h : Tells c.rollingBack .heuristicRollback targets es fs) :
    written es = [] := by
  apply written_of_apart
  intro e he
  obtain ⟨p, a, rfl⟩ := h.question e he
  simp [rollingBack]

lemma Tells.written_committing {onePhase : Bool} {own : ResourceError}
    (h : Tells (c.committing onePhase) own targets es fs) : written es = [] := by
  apply written_of_apart
  intro e he
  obtain ⟨p, a, rfl⟩ := h.question e he
  simp [committing]

/-- The failures are of those who were told. -/
lemma Tells.sublist {tell : Participant → Except ResourceError Unit → Exchange}
    {own : ResourceError} (h : Tells tell own targets es fs) :
    (fs.map (·.resource)).Sublist (targets.map (·.id)) := by
  induction h with
  | nil => exact .slnil
  | confirmed _ _ ih => exact .cons _ ih
  | failed _ _ ih => exact .cons_cons _ ih

/-! ### The books of each course -/

/-- One record is written, of what is left to be done by then. -/
lemma books_of_recording {d : Decision} {time : UInt64} {a : Except StorageError Unit}
    (h₁ : written es₁ = []) (h₂ : Neutral es₂) :
    Books (es₁ ++ c.recording d (unconfirmed es₁) time a :: es₂) := by
  have hu : unconfirmed (es₁ ++ c.recording d (unconfirmed es₁) time a :: es₂) =
      unconfirmed es₁ := by
    rw [unconfirmed_append, unconfirmed_cons, h₂.unconfirmed]
    simp [recording, Exchange.unconfirmed?]
  cases a with
  | ok _ =>
    have hw : written (es₁ ++ c.recording d (unconfirmed es₁) time (.ok ()) :: es₂) =
        [⟨c.id, d, unconfirmed es₁, time⟩] := by
      rw [written_append, h₁, written_cons, h₂.written]
      rfl
    refine ⟨by simp [hw], by simp [hw], ?_, fun _ => ⟨_, by rw [hw]; rfl, hu.symm⟩⟩
    rw [hw, hu]
    simp
  | error e =>
    have hw : written (es₁ ++ c.recording d (unconfirmed es₁) time (.error e) :: es₂) = [] := by
      rw [written_append, h₁, written_cons, h₂.written]
      rfl
    refine ⟨by simp [hw], by simp [hw], by simp [hw], fun hall => ?_⟩
    cases hall _ (List.mem_append_right _ (List.mem_cons_self ..))

/-- A commit was recorded before as well, with more pending. -/
lemma books_after_decision {pending left : List ResourceId} {time' : UInt64}
    {a : Except StorageError Unit} (h : Books es) (time : UInt64) (hu : unconfirmed es = left)
    (hw : written es = (c.recording .committed left time' a).written?.toList)
    (hp : left ⊆ pending) :
    Books (c.recording .committed pending time (.ok ()) :: es) := by
  have hwritten : written (c.recording .committed pending time (.ok ()) :: es) =
      ⟨c.id, .committed, pending, time⟩ :: written es :=
    written_cons ..
  have hunconfirmed : unconfirmed (c.recording .committed pending time (.ok ()) :: es) =
      unconfirmed es :=
    unconfirmed_cons ..
  refine ⟨?_, ?_, ?_, fun hall => ?_⟩
  · rw [hwritten, hw]
    cases a <;> simp [recording, Exchange.written?]
  · rw [hwritten, hw]
    cases a <;> simp [recording, Exchange.written?]
  · rw [hwritten, hunconfirmed]
    refine List.forall_mem_cons.mpr ⟨?_, h.covers⟩
    rw [hu]
    exact hp
  · obtain ⟨r, hr, hpending⟩ := h.last fun e he => hall e (List.mem_cons_of_mem _ he)
    refine ⟨r, ?_, hunconfirmed ▸ hpending⟩
    rw [hwritten, List.getLast?_cons, hr]
    rfl

lemma RollsBack.books (h : RollsBack c targets es fs) : Books es := by
  obtain ⟨es₁, time, a, es₂, h₁, h₂, rfl⟩ := h
  rw [← h₁.unconfirmed_rollingBack]
  exact books_of_recording h₁.written_rollingBack h₂.neutral

lemma Direct.books {x : Except TxError Unit} {status : Status} (h : Direct c ps es x status) :
    Books es := by
  have hrest : ∀ {outcome d es}, Notifies outcome es → ∀ time a,
      Books (c.recording d [] time a :: es) :=
    fun h time a => books_of_recording written_nil h.neutral
  cases h with
  | nobody time a h => exact hrest h time a
  | committed time a _ h => exact (hrest h time a).after_one (neutral_committing ..)
  | mixed time a h => exact (hrest h time a).after_one (neutral_committing ..)
  | failed time a _ _ h => exact (hrest h time a).after_one (neutral_committing ..)

lemma Votes.neutral {lastAgent : Option Participant} {unvoted won : List Participant}
    {v : Except TxError (List Participant)} (h : Votes c lastAgent prepared unvoted es v)
    (hv : v = .ok won) : Neutral es := by
  induction h with
  | all => exact neutral_nil
  | marked _ _ => cases hv
  | commit _ ih => exact (neutral_ballot ..).cons (ih hv)
  | readOnly _ ih => exact (neutral_ballot ..).cons (ih hv)
  | rollback _ => cases hv
  | failed _ _ => cases hv

/-- A vote that is lost, in terms of what follows it. -/
lemma Votes.rollsBack {lastAgent : Option Participant} {unvoted : List Participant}
    {v : Except TxError (List Participant)} {e : TxError}
    (h : Votes c lastAgent prepared unvoted es v) (hv : v = .error e) :
    ∃ es₁ es₂ targets fs, es = es₁ ++ es₂ ∧ Neutral es₁ ∧ RollsBack c targets es₂ fs := by
  induction h with
  | all => cases hv
  | marked _ h => exact ⟨[], _, _, _, rfl, neutral_nil, h⟩
  | commit _ ih =>
    obtain ⟨es₁, es₂, targets, fs, rfl, hn, h⟩ := ih hv
    exact ⟨_ :: es₁, es₂, targets, fs, rfl, (neutral_ballot ..).cons hn, h⟩
  | readOnly _ ih =>
    obtain ⟨es₁, es₂, targets, fs, rfl, hn, h⟩ := ih hv
    exact ⟨_ :: es₁, es₂, targets, fs, rfl, (neutral_ballot ..).cons hn, h⟩
  | rollback h => exact ⟨[_], _, _, _, rfl, neutral_ballot .., h⟩
  | failed _ h => exact ⟨[_], _, _, _, rfl, neutral_ballot .., h⟩

lemma Decides.neutral {lastAgent : Option Participant} {x : Except TxError Unit}
    (h : Decides c prepared lastAgent es x) (hx : x = .ok ()) : Neutral es := by
  cases h with
  | nobody => exact neutral_nil
  | commit _ => exact neutral_committing ..
  | mixed _ => cases hx
  | failed _ _ _ => cases hx

lemma Decides.rollsBack {lastAgent : Option Participant} {x : Except TxError Unit} {e : TxError}
    (h : Decides c prepared lastAgent es x) (hx : x = .error e) :
    ∃ es₁ es₂ fs, es = es₁ ++ es₂ ∧ Neutral es₁ ∧ RollsBack c prepared es₂ fs := by
  cases h with
  | nobody => cases hx
  | commit _ => cases hx
  | mixed h => exact ⟨[_], _, _, rfl, neutral_committing .., h⟩
  | failed _ _ h => exact ⟨[_], _, _, rfl, neutral_committing .., h⟩

/-- The decision is recorded with all pending, and then the outcome with those that are left. -/
lemma CarriesOut.books {lastAgent : Option Participant} {x : Except TxError Unit}
    (h : CarriesOut c lastAgent prepared es x) : Books es := by
  cases h with
  | unwritten time e h => exact h.books.after_one (neutral_recording ..)
  | nobody time hp h =>
    subst hp
    exact books_of_recording written_nil h.neutral
  | @told es₁ es₂ fs time time' a hp h₁ h₂ =>
    have hu := h₁.unconfirmed_committing
    -- from the second phase on it is one record, before which the decision stands
    have hrest : Books (es₁ ++ c.recording .committed (unconfirmed es₁) time' a :: es₂) :=
      books_of_recording h₁.written_committing h₂.neutral
    rw [hu] at hrest
    have hunconfirmed :
        unconfirmed (es₁ ++ c.recording .committed (fs.map (·.resource)) time' a :: es₂) =
        fs.map (·.resource) := by
      rw [unconfirmed_append, unconfirmed_cons, h₂.neutral.unconfirmed, hu]
      simp [recording, Exchange.unconfirmed?]
    have hwritten : written (es₁ ++ c.recording .committed (fs.map (·.resource)) time' a :: es₂) =
        (c.recording .committed (fs.map (·.resource)) time' a).written?.toList := by
      rw [written_append, h₁.written_committing, written_cons, h₂.neutral.written, List.append_nil,
        List.nil_append]
    exact books_after_decision hrest time hunconfirmed hwritten h₁.sublist.subset

lemma TwoPhase.books {x : Except TxError Unit} (h : TwoPhase c ps es x) : Books es := by
  cases h with
  | lost h =>
    obtain ⟨es₁, es₂, targets, fs, rfl, hn, hr⟩ := h.rollsBack rfl
    exact hr.books.after hn
  | marked _ h₁ h₂ => exact h₂.books.after (h₁.neutral rfl)
  | refused h₁ h₂ =>
    obtain ⟨es₁, es₂, fs, rfl, hn, hr⟩ := h₂.rollsBack rfl
    exact (hr.books.after hn).after (h₁.neutral rfl)
  | decided h₁ h₂ h₃ => exact (h₃.books.after (h₂.neutral rfl)).after (h₁.neutral rfl)

lemma Outcome.books {u : Transaction} {steps : List (System × System)} {how : Ending}
    {x : Except TxError Unit} (h : Outcome c u steps how es x) : Books es := by
  cases h with
  | rolledBack _ h => exact h.books
  | marked _ _ hb h => exact h.books.after hb.neutral
  | direct _ _ _ hb h => exact h.books.after hb.neutral
  | voted _ _ _ hb h _ => exact h.books.after hb.neutral

/-! ### What is reported -/

lemma RollsBack.decision (h : RollsBack c targets es fs) :
    ∀ r ∈ written es, r.decision = .rolledBack := by
  obtain ⟨es₁, time, a, es₂, h₁, h₂, rfl⟩ := h
  rw [written_append, h₁.written_rollingBack, written_cons, h₂.neutral.written]
  cases a <;> simp [recording, Exchange.written?]

/-- What is reported of a commit in two phases that was decided and carried out: success, or those
who did not acknowledge it. -/
lemma TwoPhase.report_eq {x : Except TxError Unit} (h : TwoPhase c ps es x)
    (hw : ∃ r ∈ written es, r.decision = .committed) :
    (unconfirmed es = [] → x = .ok ()) ∧ (unconfirmed es ≠ [] → ∃ fs : List HeuristicFailure,
      fs.map (·.resource) = unconfirmed es ∧
      (x = .error (.heuristicMixed c.id fs) ∨ x = .error (.heuristicRollback c.id fs))) := by
  -- where all is rolled back no commit is written
  have hnot : ∀ {es₁ es₂ targets fs}, Neutral es₁ → RollsBack c targets es₂ fs →
      ¬∃ r ∈ written (es₁ ++ es₂), r.decision = .committed := by
    rintro es₁ es₂ targets fs hn hr ⟨r, hr', hd⟩
    rw [written_append, hn.written, List.nil_append] at hr'
    rw [hr.decision r hr'] at hd
    cases hd
  cases h with
  | lost h =>
    obtain ⟨es₁, es₂, targets, fs, rfl, hn, hr⟩ := h.rollsBack rfl
    exact absurd hw (hnot hn hr)
  | marked _ h₁ h₂ => exact absurd hw (hnot (h₁.neutral rfl) h₂)
  | refused h₁ h₂ =>
    obtain ⟨es₁, es₂, fs, rfl, hn, hr⟩ := h₂.rollsBack rfl
    rw [← List.append_assoc] at hw
    exact absurd hw (hnot ((h₁.neutral rfl).append hn) hr)
  | @decided es₁ es₂ es₃ won x h₁ h₂ h₃ =>
    have hn := (h₁.neutral rfl).append (h₂.neutral rfl)
    rw [← List.append_assoc] at hw ⊢
    rw [unconfirmed_append, hn.unconfirmed, List.nil_append]
    generalize ps.find? (!·.twoPhase) = lastAgent at h₃
    cases h₃ with
    | @unwritten es fs time e h =>
      rw [List.append_cons] at hw
      exact absurd hw (hnot (hn.append (neutral_recording ..)) h)
    | nobody time hp h =>
      rw [unconfirmed_cons, h.neutral.unconfirmed]
      simp [recording, Exchange.unconfirmed?]
    | @told es₄ es₅ fs time time' a hp h₄ h₅ =>
      have hu : unconfirmed (c.recording .committed (won.map (·.id)) time (.ok ()) :: es₄ ++
          c.recording .committed (fs.map (·.resource)) time' a :: es₅) = fs.map (·.resource) := by
        rw [unconfirmed_append, unconfirmed_cons, unconfirmed_cons, h₄.unconfirmed_committing,
          h₅.neutral.unconfirmed]
        simp [recording, Exchange.unconfirmed?]
      rw [hu]
      -- the report names exactly those whom the record has pending
      cases fs with
      | nil => simp [report]
      | cons f fs =>
        refine ⟨by simp, fun _ => ⟨f :: fs, rfl, ?_⟩⟩
        simp only [report, List.isEmpty_cons, Bool.false_eq_true, if_false, divergence]
        split
        · exact .inl rfl
        · exact .inr rfl

lemma Outcome.report_eq {u : Transaction} {steps : List (System × System)} {x : Except TxError Unit}
    (h : Outcome c u steps .commit es x) (hd : Transaction.isDirect u.participants = false)
    (hw : ∃ r ∈ written es, r.decision = .committed) :
    (unconfirmed es = [] → x = .ok ()) ∧ (unconfirmed es ≠ [] → ∃ fs : List HeuristicFailure,
      fs.map (·.resource) = unconfirmed es ∧
      (x = .error (.heuristicMixed c.id fs) ∨ x = .error (.heuristicRollback c.id fs))) := by
  cases h with
  | marked _ _ hb h =>
    obtain ⟨r, hr, hcommitted⟩ := hw
    rw [written_append, hb.neutral.written, List.nil_append] at hr
    rw [h.decision r hr] at hcommitted
    cases hcommitted
  | direct _ hdirect _ _ _ =>
    rw [hd] at hdirect
    cases hdirect
  | voted _ _ _ hb h _ =>
    rw [written_append, hb.neutral.written, List.nil_append] at hw
    rw [unconfirmed_append, hb.neutral.unconfirmed, List.nil_append]
    exact h.report_eq hw

end Completion

/-! ### In a program -/

lemma exists_of_mem_written {es : List Exchange} {r : LogRecord} (h : r ∈ written es) :
    ∃ e ∈ es, ∃ l, e.question = .append l r := by
  obtain ⟨⟨q, a⟩, he, hr⟩ := List.mem_filterMap.mp h
  cases q with
  | append l r' =>
    cases a with
    | error e => cases hr
    | ok _ =>
      cases hr
      exact ⟨_, he, l, rfl⟩
  | _ => cases hr

namespace Machine

variable {M : Machine} {x : Request} {t : System} {result : Except TxError Unit}

/-- The log and the outcome agree: the records that the request `x` has written of its transaction,
what it was told by those that it called, and what it answers. -/
structure Agrees (M : Machine) (x : Request) (result : Except TxError Unit) : Prop where
  /-- Nobody else has written a record of the transaction. -/
  own : ∀ y ∈ M.requests, (y.tx ≠ x.tx → (M.system.tx y.tx).id ≠ (M.system.tx x.tx).id) →
    ∀ r ∈ written y.exchanges, r.tx = (M.system.tx x.tx).id → y = x
  log : ∃ log, ∀ e ∈ x.exchanges, ∀ l r, e.question = .append l r →
    l = log ∧ r.tx = (M.system.tx x.tx).id
  decision : ∀ r ∈ written x.exchanges, r.decision.status = (M.system.tx x.tx).status
  few : (written x.exchanges).length ≤ 2
  twice : (written x.exchanges).length = 2 → (M.system.tx x.tx).status = .committed
  /-- If no write failed, exactly those are pending who did not acknowledge. -/
  last : (∀ e ∈ x.exchanges, e.failsToWrite = false) →
    ∃ r, (written x.exchanges).getLast? = some r ∧ r.pending = unconfirmed x.exchanges
  /-- Whichever writes failed, nobody is forgotten. -/
  covers : ∀ r ∈ written x.exchanges, unconfirmed x.exchanges ⊆ r.pending
  /-- A commit in two phases that is recorded answers with those who did not acknowledge. -/
  report : x.how = .commit → Transaction.isDirect (M.system.tx x.tx).participants = false →
    (∃ r ∈ written x.exchanges, r.decision = .committed) →
    (unconfirmed x.exchanges = [] → result = .ok ()) ∧
    (unconfirmed x.exchanges ≠ [] → ∃ fs : List HeuristicFailure,
      fs.map (·.resource) = unconfirmed x.exchanges ∧
      (result = .error (.heuristicMixed (M.system.tx x.tx).id fs) ∨
        result = .error (.heuristicRollback (M.system.tx x.tx).id fs)))

/-- What is written is of the transaction. -/
lemma Reachable.tx_of_written (hM : M.Reachable) {y : Request} (hy : y ∈ M.requests)
    {r : LogRecord} (hr : r ∈ written y.exchanges) : r.tx = (M.system.tx y.tx).id := by
  obtain ⟨owner, hsound⟩ := hM.sound
  obtain ⟨j, hj⟩ := List.getElem?_of_mem hy
  obtain ⟨e, he, l, hq⟩ := exists_of_mem_written hr
  by_cases ho : owner y.tx = some j
  · obtain ⟨c, es', steps, u, a, -, hc, houtcome, -⟩ :=
      (hsound.inside j y hj ho).1.extend (.inl rfl)
    rw [← hc]
    exact (houtcome.speaks e (List.mem_append_left es' he)).1 r.tx (by rw [hq]; rfl)
  · rw [(hsound.outside j y hj ho).silent] at he
    cases he

/-- Only what has taken a transaction has written records of it. -/
lemma Reachable.eq_of_written (hM : M.Reachable) (hx : x ∈ M.requests) (ha : x.Accepted)
    {y : Request} (hy : y ∈ M.requests)
    (hid : y.tx ≠ x.tx → (M.system.tx y.tx).id ≠ (M.system.tx x.tx).id) {r : LogRecord}
    (hr : r ∈ written y.exchanges) (hrx : r.tx = (M.system.tx x.tx).id) : y = x := by
  obtain ⟨owner, hsound⟩ := hM.sound
  obtain ⟨i, hi⟩ := List.getElem?_of_mem hx
  obtain ⟨j, hj⟩ := List.getElem?_of_mem hy
  have htx : y.tx = x.tx := by
    by_contra hne
    exact hid hne ((hM.tx_of_written hy hr).symm.trans hrx)
  obtain ⟨e, he, -⟩ := exists_of_mem_written hr
  by_cases ho : owner y.tx = some j
  · rw [htx, hsound.owner_of_accepted hi ha, Option.some.injEq] at ho
    subst ho
    exact Option.some.inj (hj.symm.trans hi)
  · rw [(hsound.outside j y hj ho).silent] at he
    cases he

/-- Whatever the participants answered, and whichever writes failed: when a completion has come to
its end the log and the outcome agree. -/
theorem log_agrees (hM : M.Reachable) (hx : x ∈ M.requests) (ha : x.Accepted)
    (hp : x.progress = .done t result) : M.Agrees x result := by
  obtain ⟨c, hc, hid, houtcome, -⟩ := hM.outcome hx ha hp
  have hbooks := houtcome.books
  have hdecision : ∀ r ∈ written x.exchanges, r.decision.status = (M.system.tx x.tx).status :=
    fun r hr => (houtcome.tallies.status r hr).symm
  refine ⟨fun y hy hne r hr hrx => hM.eq_of_written hx ha hy hne hr hrx, ⟨c.log, ?_⟩, hdecision,
    hbooks.few, fun htwo => ?_, hbooks.last, hbooks.covers, fun hhow hd hw => ?_⟩
  · intro e he l r hq
    obtain ⟨hconcerns, hlog⟩ := houtcome.speaks e he
    rw [← hid]
    exact ⟨hlog l r hq, hconcerns r.tx (by rw [hq]; rfl)⟩
  · obtain ⟨r, hr⟩ : ∃ r, r ∈ written x.exchanges := List.exists_mem_of_length_pos (by omega)
    rw [← hdecision r hr, hbooks.twice htwo r hr]
    rfl
  · rw [← hid]
    rw [hhow] at houtcome
    exact houtcome.report_eq hd hw

/-- Two participants have agreed, and then one of them cannot be reached. -/
def unreachable : Machine :=
  let begun := ((initial 0 0).operate (.addManager {} 0)).operate (.begin 0 none)
  let enlisted := (begun.operate (.enlist 0 { ref := 0, id := ⟨"a"⟩ })).operate
    (.enlist 0 { ref := 1, id := ⟨"b"⟩ })
  let reply : (q : Question) → q.Answer
    | .commit k _ _ => if k.ref = 1 then .error (.unavailable "later") else .ok ()
    | q => Dialogue.someAnswer q
  (answer reply 0)^[40] (enlisted.request .commit 0 0)

theorem log_agrees_unreachable :
    unreachable.Reachable ∧
    unreachable.requests.map (fun x => (written x.exchanges).map (·.pending)) =
      [[[⟨"a"⟩, ⟨"b"⟩], [⟨"b"⟩]]] ∧
    ∀ x ∈ unreachable.requests, unreachable.Agrees x
      (.error (.heuristicMixed (unreachable.system.tx 0).id [⟨⟨"b"⟩, .unavailable "later"⟩])) := by
  have hM : unreachable.Reachable := ((((((reachable_initial 0 0).operate _).operate _).operate
    _).operate _).request ..).answers ..
  have hall : ∀ x ∈ unreachable.requests, x.Accepted ∧ x.progress.result? =
      some (.error (.heuristicMixed (unreachable.system.tx 0).id
        [⟨⟨"b"⟩, .unavailable "later"⟩])) := by
    decide +kernel
  refine ⟨hM, by decide +kernel, fun x hx => ?_⟩
  obtain ⟨ha, hresult⟩ := hall x hx
  obtain ⟨t, hdone⟩ := Dialogue.exists_of_result? hresult
  exact log_agrees hM hx ha hdone

end Machine

end TwoPhaseCommit
