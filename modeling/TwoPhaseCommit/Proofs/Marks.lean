import TwoPhaseCommit.Proofs.Requests

/-!
# Marks are final

Once a transaction is marked for rollback nobody is told to commit it any more, by whatever
interleaving the mark came in, and the completion of it ends with a rollback. If the mark was made
while the transaction was active, nobody is even asked for a vote.
-/

namespace TwoPhaseCommit

open Completion (Outcome Polled)

/-! ### What marks a transaction -/

namespace Transaction

variable {t t' : Transaction}

lemma status_enlist {a : Adapter} {new : Bool} (h : t.enlist a = .ok (new, t')) :
    t'.status = t.status := by
  obtain ⟨-, _, rfl⟩ := enlist_ok h
  rfl

lemma status_register {c : Synchronization} {interposed : Bool}
    (h : t.register c interposed = .ok t') : t'.status = t.status := by
  obtain ⟨_, _, rfl⟩ := register_ok h
  rfl

/-- Ending an association marks the transaction only if it failed. -/
lemma delist_cases {a : AdapterKey} {flag : DelistFlag} {found : Bool}
    (h : t.delist a flag = .ok (found, t')) :
    t'.status = t.status ∨ ∃ e, t.resources.find? (Enlisted.matches a) = some e ∧ flag = .fail ∧
      t'.rollbackReason = (t.rollbackReason <|> some (.delistedWithFailure e.adapter.id)) := by
  unfold delist at h
  split at h
  · cases h
  · split at h
    · cases h
      exact .inl rfl
    · split at h
      · cases h
        exact .inl rfl
      · cases flag with
        | success =>
          cases h
          exact .inl rfl
        | fail =>
          cases h
          exact .inr ⟨_, by assumption, rfl, rfl⟩

/-- The first mark of an active transaction keeps its reason. -/
lemma reason_of_markRollbackOnly {why : RollbackReason} (ha : t.status = .active)
    (hnone : t.rollbackReason = none) (h : t.markRollbackOnly why = .ok t') :
    t'.rollbackReason = some why := by
  simp only [markRollbackOnly, ha, Except.ok.injEq] at h
  subst h
  simp [mark, hnone]

end Transaction

namespace System

variable {s t : System} {q r : TxRef}

/-- Only a change to the transaction itself can have marked it. -/
lemma marked_of_modifyTx {f : Transaction → Transaction} (hr : r < s.transactions.size)
    (ha : (s.tx r).status = .active) (hm : ((s.modifyTx q f).tx r).status = .markedRollback) :
    q = r ∧ (s.modifyTx q f).tx r = f (s.tx r) ∧ (f (s.tx r)).status = .markedRollback := by
  by_cases hq : r = q
  · subst hq
    rw [tx_modifyTx_self _ hr] at hm ⊢
    exact ⟨rfl, rfl, hm⟩
  · rw [tx_modifyTx_of_ne _ hq, ha] at hm
    cases hm

/-- What leaves an active transaction marked, when somebody looks at the time of one, has looked at
its own. -/
lemma reason_of_expireIfDue {m : ManagerRef} (hr : r < s.transactions.size)
    (ha : (s.tx r).status = .active) (hnone : (s.tx r).rollbackReason = none)
    (hm : ((s.expireIfDue m q).2.tx r).status = .markedRollback) :
    q = r ∧ ((s.expireIfDue m q).2.tx r).rollbackReason = (s.tx r).timeout.map .timedOut := by
  rw [expireIfDue] at hm ⊢
  split at hm
  next hd =>
    rw [if_pos hd]
    simp only [modifyStats, tx_modifyManager] at hm ⊢
    obtain ⟨rfl, htx, hs⟩ := marked_of_modifyTx hr ha hm
    refine ⟨rfl, ?_⟩
    rw [htx]
    cases ht : (s.tx q).timeout with
    | none => simp [Transaction.expire, ht, ha] at hs
    | some d => simp [Transaction.expire, ht, Transaction.mark, hnone]
  next =>
    rw [ha] at hm
    cases hm

end System

namespace Operation

variable {s : System} {r : TxRef}

/-- The reason for which an operation marks a transaction. -/
def reason? (s : System) (r : TxRef) : Operation → Option RollbackReason
  | mark q => if q = r then some .markedRollbackOnly else none
  | force m id => if s.inFlight? m id = some r then some .forced else none
  | delist q a .fail =>
    if q = r then
      ((s.tx r).resources.find? (Transaction.Enlisted.matches a)).map fun e =>
        .delistedWithFailure e.adapter.id
    else none
  | expire _ q => if q = r then (s.tx r).timeout.map .timedOut else none
  | _ => none

/-- The mark of an active transaction gives the reason. -/
lemma reason_of_marks (o : Operation) (hw : (s.tx r).WellMarked) (ha : (s.tx r).status = .active)
    (hm : ((o.apply s).tx r).status = .markedRollback) :
    ((o.apply s).tx r).rollbackReason = o.reason? s r := by
  have hnone : (s.tx r).rollbackReason = none :=
    hw.reason_eq_none (by simp [ha]) (by simp [ha]) (by simp [ha])
  have hr : r < s.transactions.size := System.lt_size_of_status (by simp [ha])
  have hactive : (s.tx r).status ≠ .markedRollback := by simp [ha]
  have ht := o.touches_apply s
  generalize o.apply s = t at ht hm ⊢
  cases ht with
  | nothing => exact absurd hm hactive
  | waited _ => exact absurd hm hactive
  | added _ _ => exact absurd hm hactive
  | began hb =>
    rw [System.tx_begin hb hr] at hm
    exact absurd hm hactive
  | enlisted hx =>
    obtain ⟨rfl, -, hs⟩ := System.marked_of_modifyTx hr ha hm
    rw [Transaction.status_enlist hx] at hs
    exact absurd hs hactive
  | delisted hx =>
    obtain ⟨rfl, htx, hs⟩ := System.marked_of_modifyTx hr ha hm
    rcases Transaction.delist_cases hx with hsame | ⟨e, hfind, rfl, hreason⟩
    · rw [hsame] at hs
      exact absurd hs hactive
    · rw [htx, hreason, hnone]
      simp [reason?, hfind]
  | registered hx =>
    obtain ⟨rfl, -, hs⟩ := System.marked_of_modifyTx hr ha hm
    rw [Transaction.status_register hx] at hs
    exact absurd hs hactive
  | marked hx =>
    obtain ⟨rfl, htx, -⟩ := System.marked_of_modifyTx hr ha hm
    rw [htx, Transaction.reason_of_markRollbackOnly ha hnone hx]
    simp [reason?]
  | forced hq hx =>
    obtain ⟨rfl, htx, -⟩ := System.marked_of_modifyTx hr ha hm
    rw [htx, Transaction.reason_of_markRollbackOnly ha hnone hx]
    simp [reason?, hq]
  | looked m q =>
    obtain ⟨rfl, hreason⟩ := System.reason_of_expireIfDue hr ha hnone hm
    rw [hreason]
    simp [reason?]

end Operation

/-! ### What follows from a mark -/

namespace Completion

variable {c : Completion} {u : Transaction} {ps prepared : List Participant} {es : List Exchange}
  {steps : List (System × System)} {how : Ending} {x : Except TxError Unit}

lemma Votes.rollback_of_error {lastAgent : Option Participant} {unvoted : List Participant}
    {v : Except TxError (List Participant)} {e : TxError}
    (h : Votes c lastAgent prepared unvoted es v) (hv : v = .error e) :
    ∃ why cause, e = .rollback c.id why cause := by
  induction h with
  | all => cases hv
  | marked why h =>
    cases hv
    exact ⟨_, _, rfl⟩
  | commit _ ih => exact ih hv
  | readOnly _ ih => exact ih hv
  | rollback h =>
    cases hv
    exact ⟨_, _, rfl⟩
  | failed e h =>
    cases hv
    exact ⟨_, _, rfl⟩

/-- The last agent was told to commit. -/
lemma Decides.exists_advances {lastAgent : Option Participant} {e : TxError}
    (h : Decides c prepared lastAgent es x) (hx : x = .error e) :
    ∃ e ∈ es, e.question.advances = true := by
  cases h with
  | nobody => cases hx
  | commit _ => cases hx
  | mixed _ => exact ⟨_, List.mem_cons_self .., rfl⟩
  | failed _ _ _ => exact ⟨_, List.mem_cons_self .., rfl⟩

/-- The decision was to be written. -/
lemma CarriesOut.exists_advances {lastAgent : Option Participant}
    (h : CarriesOut c lastAgent prepared es x) : ∃ e ∈ es, e.question.advances = true := by
  cases h with
  | unwritten _ _ _ => exact ⟨_, List.mem_cons_self .., rfl⟩
  | nobody _ _ _ => exact ⟨_, List.mem_cons_self .., rfl⟩
  | told _ _ _ _ _ _ => exact ⟨_, List.mem_cons_self .., rfl⟩

/-- A commit in two phases that does nothing that serves a commit is answered by a rollback. -/
lemma TwoPhase.rollback_of_not_advances (h : TwoPhase c ps es x)
    (hes : ∀ e ∈ es, e.question.advances = false) :
    ∃ why cause, x = .error (.rollback c.id why cause) := by
  have hnot : ∀ {es'}, es' ⊆ es → ¬∃ e ∈ es', e.question.advances = true := by
    rintro es' hsub ⟨e, he, ha⟩
    rw [hes e (hsub he)] at ha
    cases ha
  cases h with
  | lost h =>
    obtain ⟨why, cause, rfl⟩ := h.rollback_of_error rfl
    exact ⟨why, cause, rfl⟩
  | marked why _ _ => exact ⟨why, none, rfl⟩
  | refused _ h => exact absurd (h.exists_advances rfl) (hnot (List.subset_append_right ..))
  | decided _ _ h =>
    refine absurd h.exists_advances (hnot ?_)
    exact List.subset_append_of_subset_right _ (List.subset_append_right ..)

lemma Outcome.not_advances (h : Outcome c u steps how es x) {why : RollbackReason}
    (hu : u.rollbackReason = some why) : ∀ e ∈ es, e.question.advances = false := by
  intro e he
  by_contra ha
  have hnone := h.tallies.unmarked e he (Bool.not_eq_false _ ▸ ha)
  rw [hu] at hnone
  cases hnone

/-- With a reason to roll back the transaction is rolled back, and a commit says so. -/
lemma Outcome.rolls_back (h : Outcome c u steps how es x) {why : RollbackReason}
    (hu : u.rollbackReason = some why) : u.status = .rolledBack ∧
      (how = .commit → ∃ why cause, x = .error (.rollback c.id why cause)) ∧
      (how = .rollback → x = .ok ()) := by
  have hstatus : u.status = .rolledBack := by
    rcases h.settled.ended with hs | hs
    · -- a reason and a commit exclude each other
      have hdoomed := h.settled.marks.doomed (by simp [hu])
      simp [hs] at hdoomed
    · exact hs
  have hno := h.not_advances hu
  refine ⟨hstatus, ?_⟩
  cases h with
  | rolledBack _ _ => exact ⟨nofun, fun _ => rfl⟩
  | marked _ _ _ _ => exact ⟨fun _ => ⟨_, _, rfl⟩, nofun⟩
  | direct _ _ ht _ _ =>
    have hnone : u.rollbackReason = none := ht.reason
    rw [hu] at hnone
    cases hnone
  | voted _ _ _ _ h _ =>
    exact ⟨fun _ => h.rollback_of_not_advances fun e he => hno e (List.mem_append_right _ he),
      nofun⟩

/-- Without a vote all participants are told to roll back, for the first reason. -/
lemma Outcome.calls_of_not_polled (h : Outcome c u steps how es x) {why : RollbackReason}
    (hu : u.rollbackReason = some why) (hp : ¬Polled c.tx steps) :
    calls es = u.participants.map (c.undoing ·.adapter) ∧
      (how = .commit → x = .error (.rollback c.id why none)) := by
  cases h with
  | rolledBack _ h => exact ⟨h.calls, nofun⟩
  | marked _ ht hb h =>
    have hwhy := ht.reason
    rw [hu, Option.some.injEq] at hwhy
    rw [calls_append, hb.calls, h.calls, hwhy]
    exact ⟨rfl, fun _ => rfl⟩
  | direct _ _ ht _ _ =>
    have hnone : u.rollbackReason = none := ht.reason
    rw [hu] at hnone
    cases hnone
  | voted hpolled _ _ _ _ _ => exact absurd hpolled hp

end Completion

namespace Machine

variable {M₀ M M' : Machine} {r : TxRef} {why : RollbackReason}

/-- A transaction has a reason to be rolled back. Nothing was or is done that serves a commit of it,
and whatever has taken it comes to its end with a rollback. -/
structure Doomed (M : Machine) (r : TxRef) (why : RollbackReason) : Prop where
  reason : (M.system.tx r).rollbackReason = some why
  status : (M.system.tx r).status = .markedRollback ∨ (M.system.tx r).status = .rollingBack ∨
    (M.system.tx r).status = .rolledBack
  /-- What has run out of time says so. -/
  timedOut : (M.system.tx r).timedOut = true →
    ∃ d, (M.system.tx r).timeout = some d ∧ why = .timedOut d
  /-- Nobody is told to commit it, and that decision is not written, not even in vain. -/
  halted : ∀ x ∈ M.requests, (x.tx ≠ r → (M.system.tx x.tx).id ≠ (M.system.tx r).id) →
    ∀ es, x.Transcript es → ∀ e ∈ es,
      (∀ k onePhase, e.question ≠ .commit k (M.system.tx r).id onePhase) ∧
      ∀ l record, e.question = .append l record → record.tx = (M.system.tx r).id →
        record.decision = .rolledBack
  /-- A request that is answered comes to its end. -/
  ends : ∀ (i : Nat) (x : Request), M.requests[i]? = some x →
    ∀ reply, ∃ n y t result, ((answer reply i)^[n] M).requests[i]? = some y ∧
      y.progress = .done t result ∧ x.Continued y
  ended : ∀ x ∈ M.requests, x.tx = r → x.Accepted → ∀ t result, x.progress = .done t result →
    (M.system.tx r).status = .rolledBack ∧
    (x.how = .commit → ∃ why cause, result = .error (.rollback (M.system.tx r).id why cause)) ∧
    (x.how = .rollback → result = .ok ())

/-- A transaction is rolled back without a vote. -/
structure Unpolled (M : Machine) (r : TxRef) (why : RollbackReason) : Prop where
  /-- Nobody is asked for a vote. -/
  unasked : ∀ x ∈ M.requests, x.tx = r → ∀ es, x.Transcript es →
    ∀ e ∈ es, ∀ k id, e.question ≠ .prepare k id
  /-- In the end each participant is told to roll back, and a commit names the first reason. -/
  ended : ∀ x ∈ M.requests, x.tx = r → x.Accepted → ∀ t result, x.progress = .done t result →
    calls x.exchanges =
      (M.system.tx r).participants.map (fun p => .rollback p.adapter (M.system.tx r).id) ∧
    (x.how = .commit → result = .error (.rollback (M.system.tx r).id why none))

/-- A reason to roll back is enough. -/
lemma Reachable.doomed (hM : M.Reachable) (hr : r < M.system.transactions.size)
    (hwhy : (M.system.tx r).rollbackReason = some why) : M.Doomed r why where
  reason := hwhy
  status := by
    obtain ⟨owner, hsound⟩ := hM.sound
    exact (hsound.marks r hr).doomed (by simp [hwhy])
  timedOut ht := by
    obtain ⟨owner, hsound⟩ := hM.sound
    obtain ⟨d, hd, hreason⟩ := (hsound.marks r hr).timedOut ht
    rw [hwhy, Option.some.injEq] at hreason
    exact ⟨d, hd, hreason⟩
  halted x hx hid es hes e he := by
    rcases hM.extend hx hes with rfl | ⟨c, es', steps, u, a, -, hc, houtcome, -, hreason⟩
    · cases he
    · have he' : e ∈ es ++ es' := List.mem_append_left es' he
      have hspeaks := (houtcome.speaks e he').1
      -- what is said about the transaction is said in its own completion
      have hown : ∀ {id}, e.question.tx? = some id → id = (M.system.tx r).id →
          e.question.advances = false := by
        rintro id hq rfl
        have htx : x.tx = r := by
          by_contra hne
          exact hid hne ((hspeaks _ hq).trans hc).symm
        subst htx
        exact houtcome.not_advances (hreason why hwhy) e he'
      refine ⟨fun k onePhase hq => ?_, fun l record hq hrecord => ?_⟩
      · rw [hq] at hown
        cases hown rfl rfl
      · rw [hq] at hown
        have hno := hown rfl hrecord
        cases hd : record.decision with
        | rolledBack => rfl
        | committed => simp [Question.advances, hd] at hno
  ends i x hi reply := exists_answers_done reply hi
  ended := by
    rintro x hx rfl ha t result hp
    obtain ⟨c, -, hid, houtcome, -⟩ := hM.outcome hx ha hp
    rw [← hid]
    exact houtcome.rolls_back hwhy

/-- A vote does not begin before an active transaction is marked, nor after it. -/
lemma Reachable.not_polled (hM : M₀.Reachable) (hstep : Step M₀ M)
    (ha : (M₀.system.tx r).status = .active) (hm : (M.system.tx r).status = .markedRollback)
    (hs : M.Steps M') {x : Request} (hx : x ∈ M'.requests) : ¬Polled r x.steps := by
  rintro ⟨p, hp, hactive, hpreparing⟩
  have hlt : ∀ {N : Machine}, (N.system.tx r).status ≠ .noTransaction →
      r < N.system.transactions.size := System.lt_size_of_status
  have hM₁ : M.Reachable := hM.steps (.single hstep)
  rcases hs.own hx hp with ⟨y, hy, -, hpy⟩ | ⟨N, N', hN, -, -, rfl⟩
  · rcases hstep.own hy hpy with ⟨z, hz, -, hpz⟩ | rfl
    · -- the step was made before: it cannot have left an earlier stage than the present one
      obtain ⟨clock, seed, hinit⟩ := hM
      rcases hinit.own hz hpz with ⟨w, hw, -⟩ | ⟨N, N', hN, hstep', hN', rfl⟩
      · cases hw
      · have hreach : N'.Reachable := ⟨clock, seed, hN.tail hstep'⟩
        have hle := ((hreach.grows hN').grows r (hlt (by simp [hpreparing]))).onward.stage
        simp [hpreparing, ha, Status.stage] at hle
    · simp [hm] at hpreparing
  · have hle := ((hM₁.grows hN).grows r (hlt (by simp [hm]))).onward.stage
    simp [hm, hactive, Status.stage] at hle

/-- If a vote does not begin at any time, nobody is asked. -/
lemma Reachable.unpolled (hM : M.Reachable) (hr : r < M.system.transactions.size)
    (hwhy : (M.system.tx r).rollbackReason = some why)
    (hp : ∀ M', M.Steps M' → ∀ x ∈ M'.requests, ¬Polled r x.steps) : M.Unpolled r why := by
  -- where a completion is through, its calls are known from its outcome
  have hended : ∀ M', M.Steps M' → ∀ x ∈ M'.requests, x.tx = r → x.Accepted →
      ∀ t result, x.progress = .done t result →
      calls x.exchanges =
        (M'.system.tx r).participants.map (fun p => .rollback p.adapter (M'.system.tx r).id) ∧
      (x.how = .commit → result = .error (.rollback (M'.system.tx r).id why none)) := by
    rintro M' hs x hx rfl ha t result hdone
    obtain ⟨c, hc, hid, houtcome, -⟩ := (hM.steps hs).outcome hx ha hdone
    have hreason := ((hM.grows hs).grows x.tx hr).onward.reason why hwhy
    have hnot := hp M' hs x hx
    rw [← hc] at hnot
    rw [← hid]
    exact houtcome.calls_of_not_polled hreason hnot
  refine ⟨?_, hended M .refl⟩
  rintro x hx rfl es hes e he k id hq
  obtain ⟨owner, hsound⟩ := hM.sound
  obtain ⟨i, hi⟩ := List.getElem?_of_mem hx
  by_cases ho : owner x.tx = some i
  · -- whatever is asked is among the calls in the end
    obtain ⟨M', y, t, result, hs, hy, hdone, hc, hpre⟩ := exists_done_of_transcript hi hes
    obtain ⟨hcalls, -⟩ := hended M' hs y (List.mem_of_getElem? hy) hc.tx
      (hc.accepted (hsound.inside i x hi ho).2) t result hdone
    have hmem : e.question ∈ calls y.exchanges := by
      refine List.mem_filter.mpr ⟨List.mem_map_of_mem (hpre.subset he), ?_⟩
      rw [hq]
      rfl
    rw [hcalls, hq] at hmem
    obtain ⟨p, -, hp⟩ := List.mem_map.mp hmem
    cases hp
  · rw [(hsound.outside i x hi ho).transcript hes] at he
    cases he

/-- A mark for rollback is final. Whatever step leaves a transaction marked, at every later point of
the program it is doomed, for the reason that it has since. And if it was active before, that is the
reason that the mark gave, and nobody is asked for a vote. -/
theorem mark_final (hM : M₀.Reachable) (hstep : Step M₀ M)
    (hm : (M.system.tx r).status = .markedRollback) (hs : M.Steps M') :
    ∃ why, (M.system.tx r).rollbackReason = some why ∧ M'.Doomed r why ∧
      ((M₀.system.tx r).status = .active →
        (∀ o : Operation, M.system = o.apply M₀.system → o.reason? M₀.system r = some why) ∧
        M'.Unpolled r why) := by
  have hM₁ : M.Reachable := hM.steps (.single hstep)
  have hr : r < M.system.transactions.size := System.lt_size_of_status (by simp [hm])
  have hgrows := hM₁.grows hs
  have hr' : r < M'.system.transactions.size := hr.trans_le hgrows.size_le
  obtain ⟨owner, hsound⟩ := hM₁.sound
  obtain ⟨why, hwhy⟩ := Option.ne_none_iff_exists'.mp ((hsound.marks r hr).marked hm)
  have hwhy' : (M'.system.tx r).rollbackReason = some why :=
    (hgrows.grows r hr).onward.reason why hwhy
  refine ⟨why, hwhy, (hM₁.steps hs).doomed hr' hwhy', fun ha => ⟨?_, ?_⟩⟩
  · intro o ho
    obtain ⟨owner₀, hsound₀⟩ := hM.sound
    have hr₀ : r < M₀.system.transactions.size := System.lt_size_of_status (by simp [ha])
    rw [ho] at hm hwhy
    rw [← o.reason_of_marks (hsound₀.marks r hr₀) ha hm, hwhy]
  · exact (hM₁.steps hs).unpolled hr' hwhy' fun M'' hs' x hx =>
      hM.not_polled hstep ha hm (hs.trans hs') hx

/-- A commit of two participants has come to a callback. -/
def readying : Machine :=
  let begun := ((initial 0 0).operate (.addManager {} 0)).operate (.begin 0 none)
  let enlisted := (begun.operate (.enlist 0 { ref := 0, id := ⟨"a"⟩ })).operate
    (.enlist 0 { ref := 1, id := ⟨"b"⟩ })
  let registered := enlisted.operate (.register 0 ⟨0⟩ false)
  (answer Dialogue.someAnswer 0)^[2] (registered.request .commit 0 0)

/-- The callback asks for a rollback, and the commit goes on to its end. -/
def prevented : Machine := (answer Dialogue.someAnswer 0)^[20] (readying.operate (.mark 0))

theorem mark_final_prevented :
    readying.Reachable ∧ (readying.system.tx 0).status = .active ∧
    ((readying.operate (.mark 0)).system.tx 0).status = .markedRollback ∧
    prevented.Doomed 0 .markedRollbackOnly ∧ prevented.Unpolled 0 .markedRollbackOnly ∧
    prevented.requests.map (fun x => (decide x.Accepted, (calls x.exchanges).length)) = [(true, 2)] := by
  have hM : readying.Reachable := (((((((reachable_initial 0 0).operate _).operate _).operate
    _).operate _).operate _).request ..).answers ..
  have ha : (readying.system.tx 0).status = .active := by decide +kernel
  have hm : ((readying.operate (.mark 0)).system.tx 0).status = .markedRollback := by decide +kernel
  obtain ⟨why, -, hdoomed, hactive⟩ := mark_final hM (.operate (.mark 0)) hm
    (steps_answers Dialogue.someAnswer 0 20 _)
  obtain ⟨hreason, hunpolled⟩ := hactive ha
  obtain rfl : RollbackReason.markedRollbackOnly = why := Option.some.inj (hreason (.mark 0) rfl)
  exact ⟨hM, ha, hm, hdoomed, hunpolled, by decide +kernel⟩

end Machine

end TwoPhaseCommit
