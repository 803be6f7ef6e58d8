import TwoPhaseCommit.Proofs.Reports

/-!
# Success that everybody agrees on

A transaction that nobody marked, and in which every participant had no part in the outcome or
confirmed its commit, is a success: with no participant, in one phase, or with a vote, and whether
or not the log could be written. There is one exception, a vote whose decision is not written.

What was said does not show that a mark was the cause of a rollback. It takes a look at the
transaction to rule that out (`Reachable.advances`).
-/

namespace TwoPhaseCommit

open Completion (Early Outcome)

/-- The participant has no part in the outcome, or has confirmed that it is to commit. -/
def Exchange.confirms (id : TxId) (k : AdapterKey) : Exchange → Bool
  | ⟨.prepare k' i, .ok v⟩ => k' = k && i = id && v = .readOnly
  | ⟨.commit k' i _, .ok _⟩ => k' = k && i = id
  | ⟨.commit k' i _, .error e⟩ => k' = k && i = id && e = .heuristicCommit
  | _ => false

/-- Every participant has no part in the outcome, or has confirmed that it is to commit. -/
def Request.Confirmed (x : Request) (t : Transaction) : Prop :=
  ∀ p ∈ t.participants, ∃ e ∈ x.exchanges, e.confirms t.id p.adapter = true

instance (x : Request) (t : Transaction) : Decidable (x.Confirmed t) :=
  inferInstanceAs (Decidable (∀ p ∈ t.participants, _))

/-- A vote is an answer to the question for it. -/
lemma Exchange.eq_of_casts {e : Exchange} {id : TxId} {k : AdapterKey} {v : Vote}
    (h : e.casts id k v = true) : e = ⟨.prepare k id, .ok v⟩ := by
  unfold casts at h
  split at h
  · simp only [Bool.and_eq_true, beq_iff_eq] at h
    obtain ⟨⟨rfl, rfl⟩, rfl⟩ := h
    rfl
  · cases h

namespace Completion

variable {c : Completion} {ps targets prepared unvoted : List Participant} {p : Participant}
  {lastAgent : Option Participant} {es es₁ es₂ : List Exchange} {fs : List HeuristicFailure}
  {s t : System} {x : Except TxError Unit}

/-! ### Who has agreed -/

/-- The participant has agreed: it leaves the outcome to the others, or it waits for it. -/
def Agrees (c : Completion) (es : List Exchange) (p : Participant) : Prop :=
  ∃ v, v ≠ .rollback ∧ c.ballot p (.ok v) ∈ es

/-- The participant has confirmed the outcome, in one way or the other. -/
def Confirms (c : Completion) (es : List Exchange) (p : Participant) : Prop :=
  c.ballot p (.ok .readOnly) ∈ es ∨
    ∃ onePhase a, (a = .ok () ∨ a = .error .heuristicCommit) ∧ c.committing onePhase p a ∈ es

lemma confirms_of_exchange {e : Exchange} (he : e ∈ es) (h : e.confirms c.id p.adapter = true) :
    c.Confirms es p := by
  unfold Exchange.confirms at h
  split at h
  · simp only [Bool.and_eq_true, decide_eq_true_eq] at h
    obtain ⟨⟨rfl, rfl⟩, rfl⟩ := h
    exact .inl he
  · simp only [Bool.and_eq_true, decide_eq_true_eq] at h
    obtain ⟨rfl, rfl⟩ := h
    exact .inr ⟨_, _, .inl rfl, he⟩
  · simp only [Bool.and_eq_true, decide_eq_true_eq] at h
    obtain ⟨⟨rfl, rfl⟩, rfl⟩ := h
    exact .inr ⟨_, _, .inr rfl, he⟩
  · cases h

lemma not_ballot_of_unpolling (h : Unpolling es) (p : Participant)
    (a : Except ResourceError Vote) : c.ballot p a ∉ es := by
  intro he
  have hnone := List.filterMap_eq_nil_iff.mp h.asked _ he
  cases hnone

lemma not_committing_of_not_advances (h : ∀ e ∈ es, e.question.advances = false) (onePhase : Bool)
    (p : Participant) (a : Except ResourceError Unit) : c.committing onePhase p a ∉ es :=
  fun he => Bool.noConfusion (h _ he)

lemma Agrees.of_cons {e : Exchange} (h : c.Agrees (e :: es) p)
    (he : ∀ v, v ≠ .rollback → c.ballot p (.ok v) ≠ e) : c.Agrees es p := by
  obtain ⟨v, hv, hmem⟩ := h
  exact ⟨v, hv, (List.mem_cons.mp hmem).resolve_left (he v hv)⟩

lemma Agrees.of_append (h : c.Agrees (es₁ ++ es₂) p) (h₁ : Unpolling es₁) : c.Agrees es₂ p := by
  obtain ⟨v, hv, hmem⟩ := h
  exact ⟨v, hv, (List.mem_append.mp hmem).resolve_left (not_ballot_of_unpolling h₁ p _)⟩

lemma Confirms.of_append (h : c.Confirms (es₁ ++ es₂) p) (h₁ : Unpolling es₁)
    (ha : ∀ e ∈ es₁, e.question.advances = false) : c.Confirms es₂ p := by
  rcases h with hmem | ⟨onePhase, a, hok, hmem⟩
  · exact .inl ((List.mem_append.mp hmem).resolve_left (not_ballot_of_unpolling h₁ p _))
  · exact .inr ⟨onePhase, a, hok, (List.mem_append.mp hmem).resolve_left
      (not_committing_of_not_advances ha onePhase p a)⟩

lemma ballot_inj {q : Participant} {a b : Except ResourceError Vote}
    (h : c.ballot p a = c.ballot q b) : p.adapter = q.adapter ∧ a = b := by
  simp only [ballot, Exchange.mk.injEq, Question.prepare.injEq, and_true, heq_eq_eq] at h
  exact h

lemma committing_inj {q : Participant} {k l : Bool} {a b : Except ResourceError Unit}
    (h : c.committing k p a = c.committing l q b) : k = l ∧ p.adapter = q.adapter ∧ a = b := by
  simp only [committing, Exchange.mk.injEq, Question.commit.injEq, true_and, heq_eq_eq] at h
  exact ⟨h.1.2, h.1.1, h.2⟩

/-- Where the vote is lost somebody has not agreed. -/
lemma Votes.exists_unwilling {v : Except TxError (List Participant)} {e : TxError}
    (h : Votes c lastAgent prepared unvoted es v) (hv : v = .error e)
    (hd : (unvoted.map (·.adapter)).Nodup) : ∃ p ∈ unvoted, ¬c.Agrees es p := by
  have hothers : ∀ {p ps a es}, ((p :: ps).map (·.adapter)).Nodup →
      (∃ q ∈ ps, ¬c.Agrees es q) → ∃ q ∈ p :: ps, ¬c.Agrees (c.ballot p a :: es) q := by
    rintro p ps a es hd ⟨q, hq, hnot⟩
    refine ⟨q, List.mem_cons_of_mem _ hq, fun h => hnot (h.of_cons fun v _ heq => ?_)⟩
    rw [List.map_cons, List.nodup_cons] at hd
    exact hd.1 ((ballot_inj heq).1 ▸ List.mem_map_of_mem hq)
  -- in a rollback nobody is asked for a vote
  have hnobody : ∀ {targets es fs p}, RollsBack c targets es fs → ¬c.Agrees es p := by
    rintro targets es fs p h ⟨v, -, hmem⟩
    exact not_ballot_of_unpolling h.unpolling p _ hmem
  induction h with
  | all => cases hv
  | marked _ h => exact ⟨_, List.mem_cons_self .., hnobody h⟩
  | commit _ ih => exact hothers hd (ih hv hd.of_cons)
  | readOnly _ ih => exact hothers hd (ih hv hd.of_cons)
  | rollback h =>
    refine ⟨_, List.mem_cons_self .., fun ha => hnobody h (ha.of_cons fun v hne heq => ?_)⟩
    exact hne (Except.ok.inj (ballot_inj heq).2)
  | failed e h =>
    refine ⟨_, List.mem_cons_self .., fun ha => hnobody h (ha.of_cons fun v _ heq => ?_)⟩
    cases (ballot_inj heq).2

lemma committing_ne_recording {onePhase : Bool} {a : Except ResourceError Unit} {d : Decision}
    {pending : List ResourceId} {time : UInt64} {b : Except StorageError Unit} :
    c.committing onePhase p a ≠ c.recording d pending time b :=
  fun heq => Question.noConfusion (congrArg Exchange.question heq)

/-- Once the outcome is recorded nobody is told to commit. -/
lemma Notifies.not_committing {outcome : Status} (h : Notifies outcome es) {onePhase : Bool}
    {a : Except ResourceError Unit} {d : Decision} {pending : List ResourceId} {time : UInt64}
    {b : Except StorageError Unit} :
    c.committing onePhase p a ∉ c.recording d pending time b :: es := by
  intro hmem
  obtain ⟨y, hy⟩ := h.question _ ((List.mem_cons.mp hmem).resolve_left committing_ne_recording)
  cases hy

/-! ### What an unmarked commit does -/

/-- A commit in two phases that all agree on tells somebody to commit, or sets about to write the
decision, unless a mark stops it. -/
lemma ends_commitTwoPhase_advances (hs : c.tx < s.transactions.size) (hp : Voting ps (s.tx c.tx))
    (h : (c.commitTwoPhase ps s).Ends (System.Spares c.tx) es t x)
    (hu : (t.tx c.tx).rollbackReason = none) (hd : (ps.map (·.adapter)).Nodup)
    (hall : ∀ p ∈ ps, p.twoPhase = true → c.Agrees es p) :
    ∃ e ∈ es, e.question.advances = true := by
  obtain ⟨es₁, votes, s₁, es₂, rfl, hv, hs₁, hp₁, h₁⟩ :=
    (proceeds_collectVotes _ _ _).split hs hp h
  have hvotes := says_collectVotes hv
  cases votes with
  | error e =>
    obtain ⟨rfl, rfl, rfl⟩ := Dialogue.ends_done_iff.mp h₁
    obtain ⟨p, hp, hnot⟩ := hvotes.exists_unwilling rfl ((List.filter_sublist.map _).nodup hd)
    obtain ⟨hp, htwo⟩ := List.mem_filter.mp hp
    rw [List.append_nil] at hall
    exact absurd (hall p hp htwo) hnot
  | ok prepared =>
    obtain ⟨s₂, hs₂, h₂⟩ := ends_locked_bind (f := Transaction.enterPrepared) h₁
    have hsize : c.tx < s₂.transactions.size := hs₁.trans_le hs₂.size_le
    have hp₂ : Voting ps (s₂.tx c.tx) := (stable_voting ps).keeps hp₁ (hs₂.undisturbed hs₁)
    have htx := System.tx_modifyTx_self (fun x => x.enterPrepared.2) hsize
    by_cases hm : (s₂.tx c.tx).status = .markedRollback
    · have hentered : (s₂.tx c.tx).enterPrepared = (some (s₂.tx c.tx).reason, s₂.tx c.tx) := by
        simp [Transaction.enterPrepared, Transaction.markedReason, hm]
      rw [hentered] at h₂ htx
      have hheld : Held .markedRollback (· ≠ none) ps
          ((s₂.modifyTx c.tx fun x => x.enterPrepared.2).tx c.tx) := by
        rw [htx]
        exact ⟨hp₂.completing, hm, hp₂.marks.marked hm, hp₂.participants, hp₂.marks⟩
      have hstable : Stable (Held .markedRollback (· ≠ none) ps) :=
        stable_held (by simp [Status.stage]) ..
      have hover := ((goes_aborted (α := Unit) hstable
        (fun _ h => ⟨h.undoable (by simp [Status.next]), h.participants⟩) _ _ _).unnoted.ends
        (by rw [System.size_modifyTx]; exact hsize) hheld h₂).2
      cases x with
      | ok _ =>
        obtain ⟨fs, -, hx⟩ := says_aborted ⟨_, _, _, h₂⟩
        cases hx
      | error e => exact absurd hu hover.reason
    · have hentered : (s₂.tx c.tx).enterPrepared.1 = none := by
        simp [Transaction.enterPrepared, Transaction.markedReason, hm]
      rw [hentered] at h₂
      obtain ⟨es₃, s₃, y, es₄, h₃, h₄, rfl⟩ := Dialogue.ends_bind_iff.mp h₂
      have hdecides := says_commitLastAgent ⟨_, _, _, h₃⟩
      cases y with
      | error e =>
        obtain ⟨e, he, ha⟩ := hdecides.exists_advances rfl
        exact ⟨e, by simp [he], ha⟩
      | ok _ =>
        obtain ⟨e, he, ha⟩ := (says_carryOut ⟨_, _, _, h₄⟩).exists_advances
        exact ⟨e, by simp [he], ha⟩

lemma commitAll_of_not_direct (h : Transaction.isDirect ps = false) :
    c.commitAll ps = c.commitTwoPhase ps := by
  match ps with
  | [] => cases h
  | [p] => exact if_neg (Bool.eq_false_iff.mp h)
  | p :: q :: ps => rfl

/-- The same of the whole commit. -/
lemma ends_commitActive_advances {callbacks : List Synchronization}
    (hs : c.tx < s.transactions.size) (he : Early (s.tx c.tx))
    (h : (c.commitActive callbacks s).Ends (System.Spares c.tx) es t x)
    (hu : (t.tx c.tx).rollbackReason = none)
    (hdirect : Transaction.isDirect (t.tx c.tx).participants = false)
    (hd : ((t.tx c.tx).participants.map (·.adapter)).Nodup)
    (hall : ∀ p ∈ (t.tx c.tx).participants, p.twoPhase = true → c.Agrees es p) :
    ∃ e ∈ es, e.question.advances = true := by
  obtain ⟨befores, _, s₁, es, rfl, hb, hs₁, he₁, h₁⟩ :=
    (goes_runBefore callbacks).unnoted.split hs he h
  obtain ⟨s₂, hs₂, h₂⟩ := ends_locked_bind (f := Transaction.enterCommit) h₁
  have hsize : c.tx < s₂.transactions.size := hs₁.trans_le hs₂.size_le
  have hsize' : ∀ f, c.tx < (s₂.modifyTx c.tx f).transactions.size := by
    intro f
    rw [System.size_modifyTx]
    exact hsize
  have he₂ : Early (s₂.tx c.tx) := stable_early.keeps he₁ (hs₂.undisturbed hs₁)
  have hentered := System.tx_modifyTx_self (fun x => x.enterCommit.2) hsize
  -- the callbacks may have marked the transaction
  rcases he₂.enterCommit with ⟨hm, henter⟩ | ⟨-, t', henter, -, hin, -⟩
  · rw [henter] at h₂ hentered
    obtain ⟨why, hwhy⟩ := Option.ne_none_iff_exists'.mp (he₂.marks.marked hm)
    obtain ⟨es₁, s₃, e, es₂, h₃, h₄, rfl⟩ := Dialogue.ends_bind_iff.mp h₂
    obtain ⟨rfl, rfl, rfl⟩ := Dialogue.ends_done_iff.mp h₄
    have hheld : Held .markedRollback (· = some why) (s₂.tx c.tx).participants
        ((s₂.modifyTx c.tx fun x => x.enterCommit.2).tx c.tx) := by
      rw [hentered]
      exact ⟨he₂.completing, hm, hwhy, rfl, he₂.marks⟩
    have hreason := (ends_rollBackMarked (hsize' _) hheld h₃).1.reason
    rw [hu] at hreason
    cases hreason
  · rw [henter] at h₂ hentered
    have hin' : Entered (s₂.tx c.tx).participants
        ((s₂.modifyTx c.tx fun x => x.enterCommit.2).tx c.tx) := by
      rw [hentered]
      exact hin
    have h₃ : (c.commitAll (s₂.tx c.tx).participants
        (s₂.modifyTx c.tx fun x => x.enterCommit.2)).Ends (System.Spares c.tx) es t x := h₂
    have hps := ((goes_commitAll _).unnoted.ends (hsize' _) hin' h₃).2.participants
    rw [hps] at hdirect hd hall
    rw [commitAll_of_not_direct hdirect] at h₃
    rw [Entered, if_neg (by simp [hdirect])] at hin'
    obtain ⟨e, hmem, ha⟩ := ends_commitTwoPhase_advances (hsize' _) hin' h₃ hu hd
      fun p hp htwo => (hall p hp htwo).of_append (Readies.unpolling (says_runBefore hb))
    exact ⟨e, List.mem_append_right _ hmem, ha⟩

/-! ### Who confirms a commit -/

/-- Where those who are told confirm, nobody fails. -/
lemma Tells.eq_nil_of_confirmed (h : Tells (c.committing false) .heuristicCommit targets es fs)
    (hd : (targets.map (·.adapter)).Nodup)
    (hall : ∀ p ∈ targets, ∃ a, (a = .ok () ∨ a = .error .heuristicCommit) ∧
      c.committing false p a ∈ es) : fs = [] := by
  have hlater : ∀ {q : Participant} {ps : List Participant} {b es},
      ((q :: ps).map (·.adapter)).Nodup →
      (∀ p ∈ q :: ps, ∃ a, (a = .ok () ∨ a = .error .heuristicCommit) ∧
        c.committing false p a ∈ c.committing false q b :: es) →
      ∀ p ∈ ps, ∃ a, (a = .ok () ∨ a = .error .heuristicCommit) ∧ c.committing false p a ∈ es := by
    intro q ps b es hd hall p hp
    obtain ⟨a, ha, hmem⟩ := hall p (List.mem_cons_of_mem _ hp)
    refine ⟨a, ha, (List.mem_cons.mp hmem).resolve_left fun heq => ?_⟩
    rw [List.map_cons, List.nodup_cons] at hd
    exact hd.1 ((committing_inj heq).2.1 ▸ List.mem_map_of_mem hp)
  induction h with
  | nil => rfl
  | confirmed _ _ ih => exact ih hd.of_cons (hlater hd hall)
  | @failed p ps e es fs he h _ =>
    -- who fails to confirm is asked only once, and so does not confirm later, either
    exfalso
    obtain ⟨a, ha, hmem⟩ := hall p (List.mem_cons_self ..)
    rcases List.mem_cons.mp hmem with heq | hmem
    · rw [(committing_inj heq).2.2] at ha
      simp [he] at ha
    · rw [List.map_cons, List.nodup_cons] at hd
      obtain ⟨q, hq, b, heq, -⟩ := h.answer hmem
      exact hd.1 ((committing_inj heq).2.1 ▸ List.mem_map_of_mem hq)

section Vote

variable {won : List Participant}

lemma Votes.mem_of_won (h : Votes c lastAgent [] unvoted es (.ok won))
    (hd : (unvoted.map (·.adapter)).Nodup) (hp : p ∈ won) :
    p ∈ unvoted ∧ c.ballot p (.ok .commit) ∈ es := by
  obtain ⟨-, -, rfl⟩ := h.won rfl hd
  obtain ⟨hp, hany⟩ := List.mem_filter.mp hp
  obtain ⟨e, he, hcast⟩ := List.any_eq_true.mp hany
  rw [Exchange.eq_of_casts hcast] at he
  exact ⟨hp, he⟩

/-- Who has voted to commit has not voted otherwise, and so confirms it later. -/
lemma Votes.confirms_of_won (h : Votes c lastAgent [] unvoted es (.ok won))
    (hd : (unvoted.map (·.adapter)).Nodup) (hp : p ∈ won) (hc : c.Confirms (es ++ es₁) p)
    (hu : Unpolling es₁) :
    ∃ onePhase a, (a = .ok () ∨ a = .error .heuristicCommit) ∧ c.committing onePhase p a ∈ es₁ := by
  rcases hc with hmem | ⟨onePhase, a, hok, hmem⟩
  · exfalso
    have hmem := (List.mem_append.mp hmem).resolve_right (not_ballot_of_unpolling hu p _)
    have hasked : (asked es).Nodup := by
      rw [(h.calls_of_ok rfl).1]
      exact hd
    have heq := eq_of_asked hasked (h.mem_of_won hd hp).2 hmem (k := p.adapter) rfl rfl
    cases (ballot_inj heq).2
  · exact ⟨onePhase, a, hok, (List.mem_append.mp hmem).resolve_left
      (not_committing_of_not_advances h.not_advances onePhase p a)⟩

/-- Only who has a first phase is asked for a vote. -/
lemma Votes.not_ballot (h : Votes c lastAgent [] unvoted es (.ok won))
    (htwo : ∀ q ∈ unvoted, q.twoPhase = true) (hp : p.twoPhase = false)
    (a : Except ResourceError Vote) : c.ballot p a ∉ es := by
  intro he
  have hasked : p.adapter ∈ asked es := List.mem_filterMap.mpr ⟨_, he, rfl⟩
  rw [(h.calls_of_ok rfl).1] at hasked
  obtain ⟨q, hq, heq⟩ := List.mem_map.mp hasked
  have hq' := htwo q hq
  rw [Participant.twoPhase, heq] at hq'
  rw [Participant.twoPhase, hq'] at hp
  cases hp

end Vote

/-- Who is told to commit confirms it then, or not at all. -/
lemma Decides.not_confirms {e : TxError} (h : Decides c prepared (some p) es (.error e))
    (onePhase : Bool) {a : Except ResourceError Unit}
    (ha : a = .ok () ∨ a = .error .heuristicCommit) : c.committing onePhase p a ∉ es := by
  intro hmem
  cases h with
  | mixed h =>
    rcases List.mem_cons.mp hmem with heq | hmem
    · rw [(committing_inj heq).2.2] at ha
      simp at ha
    · exact not_committing_of_not_advances h.not_advances onePhase p a hmem
  | failed he _ h =>
    rcases List.mem_cons.mp hmem with heq | hmem
    · rw [(committing_inj heq).2.2] at ha
      simp [he] at ha
    · exact not_committing_of_not_advances h.not_advances onePhase p a hmem

/-- Only the last agent is told to commit before the decision. -/
lemma Decides.not_twoPhase (h : Decides c prepared (ps.find? (!·.twoPhase)) es (.ok ()))
    {onePhase : Bool} {a : Except ResourceError Unit} (he : c.committing onePhase p a ∈ es) :
    ¬p.twoPhase = true := by
  generalize hlast : ps.find? (!·.twoPhase) = lastAgent at h
  cases h with
  | nobody => cases he
  | @commit q b _ =>
    have heq := (committing_inj (List.mem_singleton.mp he)).2.1
    rw [Participant.twoPhase, heq]
    exact Bool.eq_false_iff.mp (find_lastAgent (Option.mem_toList.mpr hlast)).2

/-- After a vote that was won: if all confirm, all is well once the decision is written. -/
lemma CarriesOut.success_iff {u : Transaction} (h : CarriesOut c lastAgent prepared es x)
    (h₁ : Neutral es₁) (hes : Tallies (es₁ ++ es) u) (hd : (prepared.map (·.adapter)).Nodup)
    (hall : ∀ p ∈ prepared, ∃ a, (a = .ok () ∨ a = .error .heuristicCommit) ∧
      c.committing false p a ∈ es) :
    (x = .ok () ∧ u.status = .committed) ↔ ¬Unrecorded (es₁ ++ es) := by
  -- a decision that is written settles the status
  have hwritten : ∀ {time pending es},
      Tallies (es₁ ++ c.recording .committed pending time (.ok ()) :: es) u →
      u.status = .committed ∧
        ¬Unrecorded (es₁ ++ c.recording .committed pending time (.ok ()) :: es) := by
    intro time pending es hes
    have hmem : (⟨c.id, .committed, pending, time⟩ : LogRecord) ∈
        written (es₁ ++ c.recording .committed pending time (.ok ()) :: es) := by
      rw [written_append, written_cons]
      exact List.mem_append_right _ (List.mem_cons_self ..)
    exact ⟨hes.status _ hmem, fun hun => hun.unwritten _ hmem rfl⟩
  cases h with
  | unwritten time e h => exact iff_of_false nofun (not_not.mpr (unrecorded_of_unwritten h₁ h))
  | nobody time _ _ => exact iff_of_true ⟨rfl, (hwritten hes).1⟩ (hwritten hes).2
  | @told es₂ es₃ fs time time' a hp h₂ h₃ =>
    -- all are told once, so that nobody is left over who failed
    obtain rfl : fs = [] := by
      refine h₂.eq_nil_of_confirmed hd fun p hp => ?_
      obtain ⟨a, ha, hmem⟩ := hall p hp
      rw [List.cons_append] at hmem
      have hmem := (List.mem_cons.mp hmem).resolve_left committing_ne_recording
      exact ⟨a, ha, (List.mem_append.mp hmem).resolve_right h₃.not_committing⟩
    exact iff_of_true ⟨rfl, (hwritten hes).1⟩ (hwritten hes).2

lemma TwoPhase.success_iff {u : Transaction} (h : TwoPhase c ps es x) (hes : Tallies es u)
    (hd : (ps.map (·.adapter)).Nodup) (hall : ∀ p ∈ ps, c.Confirms es p)
    (hadv : ∃ e ∈ es, e.question.advances = true) :
    (x = .ok () ∧ u.status = .committed) ↔ ¬Unrecorded es := by
  have hidle : ∀ {es : List Exchange}, (∀ e ∈ es, e.question.advances = false) →
      ¬∃ e ∈ es, e.question.advances = true := by
    rintro es h ⟨e, he, ha⟩
    rw [h e he] at ha
    cases ha
  have hvoters : ((ps.filter (·.twoPhase)).map (·.adapter)).Nodup :=
    (List.filter_sublist.map _).nodup hd
  cases h with
  | lost h => exact absurd hadv (hidle h.not_advances)
  | marked _ h₁ h₂ =>
    exact absurd hadv (hidle (List.forall_mem_append.mpr ⟨h₁.not_advances, h₂.not_advances⟩))
  | refused h₁ h₂ =>
    -- the last agent refused, which neither a vote nor an answer of it would confirm
    exfalso
    cases hfind : ps.find? (!·.twoPhase) with
    | none =>
      rw [hfind] at h₂
      cases h₂
    | some p =>
      rw [hfind] at h₁ h₂
      obtain ⟨hmem, hp⟩ := find_lastAgent (Option.mem_toList.mpr hfind)
      rcases hall p hmem with hmem | ⟨onePhase, a, ha, hmem⟩
      · rcases List.mem_append.mp hmem with hmem | hmem
        · exact h₁.not_ballot (fun q hq => (List.mem_filter.mp hq).2) hp _ hmem
        · exact not_ballot_of_unpolling h₂.unpolling p _ hmem
      · rcases List.mem_append.mp hmem with hmem | hmem
        · exact not_committing_of_not_advances h₁.not_advances onePhase p a hmem
        · exact h₂.not_confirms onePhase ha hmem
  | @decided es₁ es₂ es₃ won x h₁ h₂ h₃ =>
    -- all who voted to commit are told, and confirm
    have hwon : (won.map (·.adapter)).Nodup := by
      obtain ⟨-, -, rfl⟩ := h₁.won rfl hvoters
      exact (List.filter_sublist.map _).nodup hvoters
    rw [← List.append_assoc] at hes ⊢
    refine h₃.success_iff ((h₁.neutral rfl).append (h₂.neutral rfl)) hes hwon fun p hp => ?_
    obtain ⟨hvoter, -⟩ := h₁.mem_of_won hvoters hp
    obtain ⟨hp', htwo⟩ := List.mem_filter.mp hvoter
    obtain ⟨onePhase, a, ha, hmem⟩ := h₁.confirms_of_won hvoters hp (hall p hp')
      (h₂.unpolling.append h₃.unpolling)
    rcases List.mem_append.mp hmem with hmem | hmem
    · exact absurd htwo (h₂.not_twoPhase hmem)
    · cases onePhase with
      | false => exact ⟨a, ha, hmem⟩
      | true => exact absurd rfl (h₃.concludes.not_onePhase _ hmem p.adapter)

/-- Without a vote it does not even matter whether the outcome is recorded. -/
lemma Direct.success {status : Status} (h : Direct c ps es x status)
    (hall : ∀ p ∈ ps, c.Confirms es p) : x = .ok () ∧ status = .committed := by
  have hunpolling := h.settles.unpolling
  -- a participant that is asked only once, and fails, has not confirmed
  have hfails : ∀ {p e es}, (∀ onePhase a, c.committing onePhase p a ∉ es) →
      e ≠ .heuristicCommit → Unpolling (c.committing true p (.error e) :: es) →
      ¬c.Confirms (c.committing true p (.error e) :: es) p := by
    rintro p e es hnot he hu (hmem | ⟨onePhase, a, ha, hmem⟩)
    · exact not_ballot_of_unpolling hu p _ hmem
    · rcases List.mem_cons.mp hmem with heq | hmem
      · rw [(committing_inj heq).2.2] at ha
        simp [he] at ha
      · exact hnot onePhase a hmem
  cases h with
  | nobody => exact ⟨rfl, rfl⟩
  | committed => exact ⟨rfl, rfl⟩
  | mixed time a h =>
    exact absurd (hall _ (List.mem_singleton_self _))
      (hfails (fun _ _ => h.not_committing) (by simp) hunpolling)
  | failed time a he _ h =>
    exact absurd (hall _ (List.mem_singleton_self _))
      (hfails (fun _ _ => h.not_committing) he hunpolling)

lemma Outcome.success_iff {u : Transaction} {steps : List (System × System)}
    (h : Outcome c u steps .commit es x) (hu : u.rollbackReason = none)
    (hd : (u.participants.map (·.adapter)).Nodup) (hall : ∀ p ∈ u.participants, c.Confirms es p)
    (hadv : Transaction.isDirect u.participants = false → ∃ e ∈ es, e.question.advances = true) :
    (x = .ok () ∧ u.status = .committed) ↔
      ¬(Transaction.isDirect u.participants = false ∧ Unrecorded es) := by
  cases h with
  | marked _ ht _ _ =>
    have hreason := ht.reason
    rw [hu] at hreason
    cases hreason
  | direct _ hdirect _ hb h =>
    refine iff_of_true (h.success fun p hp => (hall p hp).of_append hb.unpolling hb.not_advances) ?_
    simp [hdirect]
  | @voted befores es x _ hdirect _ hb h hes =>
    have hlater : ∀ {e}, e ∈ befores ++ es → e.question.advances = true → e ∈ es := by
      intro e he ha
      refine (List.mem_append.mp he).resolve_left fun he => ?_
      rw [hb.not_advances e he] at ha
      cases ha
    obtain ⟨e, he, ha⟩ := hadv hdirect
    rw [unrecorded_append_iff hb.neutral hb.not_advances, and_iff_right hdirect]
    exact h.success_iff hes hd (fun p hp => (hall p hp).of_append hb.unpolling hb.not_advances)
      ⟨e, hlater he ha, ha⟩

end Completion

/-! ### In a program -/

namespace Machine

variable {M : Machine} {x : Request} {t : System} {result : Except TxError Unit}

/-- A commit with a vote in which all agree does something for it, unless there is a reason to roll
back. -/
lemma Reachable.advances (hM : M.Reachable) (hx : x ∈ M.requests) (ha : x.Accepted)
    (hp : x.progress = .done t result) (hc : x.how = .commit)
    (hu : (M.system.tx x.tx).rollbackReason = none)
    (hd : Transaction.isDirect (M.system.tx x.tx).participants = false)
    (hall : ∀ p ∈ (M.system.tx x.tx).participants, p.twoPhase = true →
      ∃ v, v ≠ .rollback ∧ ⟨.prepare p.adapter (M.system.tx x.tx).id, .ok v⟩ ∈ x.exchanges) :
    ∃ e ∈ x.exchanges, e.question.advances = true := by
  obtain ⟨owner, hsound⟩ := hM.sound
  obtain ⟨i, hi⟩ := List.getElem?_of_mem hx
  obtain ⟨hin, -⟩ := hsound.inside i x hi (hsound.owner_of_accepted hi ha)
  have hnodup := (hsound.distinct x.tx (hsound.refers i x hi)).nodup
  obtain ⟨c, s, hf, hid⟩ := hin.course
  obtain ⟨y, before, u, steps, hy, htakes, -, -, hr⟩ := hf.runs
  have hspares := hin.spares
  have hcont := hin.continues
  rw [hp] at hr hspares hcont
  obtain ⟨hsize, hsettled⟩ := hcont
  have hundisturbed := hspares.undisturbed hsize
  have hps := ((Completion.stable_concluded ..).keeps hsettled hundisturbed).participants
  have hreason := hundisturbed.grows.onward.late hsettled.marks hsettled.ended.stage_le
  rw [hreason] at hu
  rw [hps] at hd hnodup hall
  rw [← hid] at hall
  rw [← hf.tx] at hu hd hnodup hall
  rw [hc] at hy
  cases hy with
  | commit _ =>
    exact Completion.ends_commitActive_advances hf.size htakes.early hr.leads hu hd hnodup hall
  | marked hm =>
    obtain ⟨-, why, fs, -, hrolled, -⟩ := Completion.runs_rollBackMarked hf.size htakes.early hm hr
    cases hu.symm.trans hrolled.reason

/-- Unanimous success is success on every path. A commit that has taken a transaction which nobody
marked, and which all participants confirm, succeeds with one exception: it goes by a vote, and its
decision is not written. -/
theorem unanimous_success_iff (hM : M.Reachable) {i : Nat} (hi : M.requests[i]? = some x)
    (hc : x.how = .commit) (ha : x.Accepted) :
    (∀ reply, ∃ n y t result, ((answer reply i)^[n] M).requests[i]? = some y ∧
      y.progress = .done t result ∧ x.Continued y) ∧
    ∀ t result, x.progress = .done t result → (M.system.tx x.tx).rollbackReason = none →
      x.Confirmed (M.system.tx x.tx) →
      ((result = .ok () ∧ (M.system.tx x.tx).status = .committed) ↔
        ¬(Transaction.isDirect (M.system.tx x.tx).participants = false ∧
          Unrecorded x.exchanges)) := by
  refine ⟨fun reply => exists_answers_done reply hi, fun t result hp hu hall => ?_⟩
  have hx : x ∈ M.requests := List.mem_of_getElem? hi
  obtain ⟨owner, hsound⟩ := hM.sound
  have hd := (hsound.distinct x.tx (hsound.refers i x hi)).nodup
  obtain ⟨c, -, hid, houtcome, -⟩ := hM.outcome hx ha hp
  rw [hc] at houtcome
  have hconfirms : ∀ p ∈ (M.system.tx x.tx).participants, c.Confirms x.exchanges p := by
    intro p hp
    obtain ⟨e, he, h⟩ := hall p hp
    exact Completion.confirms_of_exchange he (hid ▸ h)
  refine houtcome.success_iff hu hd hconfirms fun hdirect => ?_
  by_cases hcommits : ∃ e ∈ x.exchanges, e.question.advances = true
  · exact hcommits
  · -- nobody was told to commit, so that all have voted to have no part in the outcome
    refine hM.advances hx ha hp hc hu hdirect fun p hp _ => ?_
    rw [← hid]
    rcases hconfirms p hp with hmem | ⟨onePhase, a, -, hmem⟩
    · exact ⟨.readOnly, by simp, hmem⟩
    · exact absurd ⟨_, hmem, rfl⟩ hcommits

/-- A commit of one participant comes to its end, and the log cannot be written. -/
def alone (twoPhase : Bool) : Machine :=
  let begun := ((initial 0 0).operate (.addManager {} 0)).operate (.begin 0 none)
  let enlisted := begun.operate (.enlist 0 { ref := 0, id := ⟨"a"⟩, twoPhase := twoPhase })
  let reply : (q : Question) → q.Answer
    | .append .. => .error (.io .notFound)
    | q => Dialogue.someAnswer q
  (answer reply 0)^[40] (enlisted.request .commit 0 0)

lemma reachable_alone (twoPhase : Bool) : (alone twoPhase).Reachable :=
  (((((reachable_initial 0 0).operate _).operate _).operate _).request ..).answers ..

theorem unanimous_success_iff_alone :
    ((alone true).requests.length = 1 ∧ ∀ x ∈ (alone true).requests,
      x.progress.result? = some (.ok ()) ∧ ((alone true).system.tx x.tx).status = .committed) ∧
    ((alone false).requests.length = 1 ∧ ∀ x ∈ (alone false).requests,
      ¬(x.progress.result? = some (.ok ()) ∧
        ((alone false).system.tx x.tx).status = .committed)) := by
  have hall : ∀ twoPhase, ∀ x ∈ (alone twoPhase).requests, x.how = .commit ∧ x.Accepted ∧
      x.progress.result?.isSome = true ∧
      ((alone twoPhase).system.tx x.tx).rollbackReason = none ∧
      x.Confirmed ((alone twoPhase).system.tx x.tx) ∧
      Transaction.isDirect ((alone twoPhase).system.tx x.tx).participants = twoPhase ∧
      (twoPhase = false → ∃ e ∈ x.exchanges, e.failsToWrite = true ∧ e.question.advances = true) ∧
      ∀ r ∈ written x.exchanges, r.decision ≠ .committed := by
    decide +kernel
  have hiff : ∀ twoPhase, ∀ x ∈ (alone twoPhase).requests,
      (x.progress.result? = some (.ok ()) ∧
        ((alone twoPhase).system.tx x.tx).status = .committed) ↔ twoPhase = true := by
    intro twoPhase x hx
    obtain ⟨hhow, ha, hsome, hnone, hconfirmed, hdirect, hlost, hunwritten⟩ := hall twoPhase x hx
    obtain ⟨result, hresult⟩ := Option.isSome_iff_exists.mp hsome
    obtain ⟨t, hdone⟩ := Dialogue.exists_of_result? hresult
    obtain ⟨i, hi⟩ := List.getElem?_of_mem hx
    rw [hresult, Option.some.injEq,
      (unanimous_success_iff (reachable_alone twoPhase) hi hhow ha).2 t result hdone hnone
        hconfirmed, hdirect]
    cases twoPhase with
    | true => simp
    | false => simpa using ⟨hlost rfl, hunwritten⟩
  refine ⟨⟨by decide +kernel, fun x hx => (hiff true x hx).mpr rfl⟩, by decide +kernel,
    fun x hx h => ?_⟩
  cases (hiff false x hx).mp h

/-- Unanimous success can be reported as a failure. -/
theorem not_unanimous_success :
    ¬∀ (M : Machine) (x : Request) (t : System) (result : Except TxError Unit),
      M.Reachable → x ∈ M.requests → x.how = .commit → x.Accepted → x.progress = .done t result →
      (M.system.tx x.tx).rollbackReason = none → x.Confirmed (M.system.tx x.tx) →
      result = .ok () ∧ (M.system.tx x.tx).status = .committed := by
  intro h
  have hall : ∀ x ∈ (alone false).requests, x.how = .commit ∧ x.Accepted ∧
      x.progress.result?.isSome = true ∧
      ((alone false).system.tx x.tx).rollbackReason = none ∧
      x.Confirmed ((alone false).system.tx x.tx) ∧
      ((alone false).system.tx x.tx).status = .rolledBack := by
    decide +kernel
  obtain ⟨x, hx⟩ : ∃ x, x ∈ (alone false).requests :=
    List.exists_mem_of_length_pos (by decide +kernel)
  obtain ⟨hhow, ha, hsome, hnone, hconfirmed, hstatus⟩ := hall x hx
  obtain ⟨result, hresult⟩ := Option.isSome_iff_exists.mp hsome
  obtain ⟨t, hdone⟩ := Dialogue.exists_of_result? hresult
  have hcommitted := (h _ x t result (reachable_alone false) hx hhow ha hdone hnone hconfirmed).2
  rw [hstatus] at hcommitted
  cases hcommitted

end Machine

end TwoPhaseCommit
