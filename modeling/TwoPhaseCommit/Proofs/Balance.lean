import Mathlib.Algebra.BigOperators.Intervals
import Mathlib.Data.Finset.Card
import TwoPhaseCommit.Proofs.Requests

/-!
# The counts of a manager

A manager has a list of the transactions in flight, counts them twice, and tallies what it has
begun, committed, rolled back, found out of time and seen diverge. In a program with a single
manager the list and the counts agree at any time (`System.Balanced`): they lag behind only for a
transaction that has ended and is not struck yet, and for a divergence whose completion goes on. So
when all completions are through, they say exactly what has become of the transactions.
-/

namespace TwoPhaseCommit

open Completion (reported)

/-! ### Counting -/

namespace System

variable {s t : System} {P Q : TxRef → Prop} [DecidablePred P] [DecidablePred Q] {q : TxRef}

/-- How many transactions have a property. -/
def count (s : System) (P : TxRef → Prop) [DecidablePred P] : Nat :=
  ((Finset.range s.transactions.size).filter P).card

lemma count_congr
    (h : ∀ r, r < t.transactions.size ∧ Q r ↔ r < s.transactions.size ∧ P r) :
    t.count Q = s.count P := by
  refine congrArg Finset.card (Finset.ext fun r => ?_)
  simpa only [Finset.mem_filter, Finset.mem_range] using h r

/-- One more transaction has the property. -/
lemma count_insert (hq : ¬(q < s.transactions.size ∧ P q))
    (h : ∀ r, r < t.transactions.size ∧ Q r ↔ r = q ∨ r < s.transactions.size ∧ P r) :
    t.count Q = s.count P + 1 := by
  have hmem : q ∉ (Finset.range s.transactions.size).filter P := by
    simpa only [Finset.mem_filter, Finset.mem_range] using hq
  rw [count, count, ← Finset.card_insert_of_notMem hmem]
  refine congrArg Finset.card (Finset.ext fun r => ?_)
  simpa only [Finset.mem_insert, Finset.mem_filter, Finset.mem_range] using h r

end System

/-! ### Balance -/

namespace Stats

variable (s : Stats) (outcome : Status)

@[simp] lemma begun_recordEnd : (s.recordEnd outcome).begun = s.begun := by
  cases outcome <;> rfl

@[simp] lemma active_recordEnd : (s.recordEnd outcome).active = s.active - 1 := by
  cases outcome <;> rfl

@[simp] lemma timedOut_recordEnd : (s.recordEnd outcome).timedOut = s.timedOut := by
  cases outcome <;> rfl

@[simp] lemma heuristic_recordEnd : (s.recordEnd outcome).heuristic = s.heuristic := by
  cases outcome <;> rfl

lemma committed_recordEnd :
    (s.recordEnd outcome).committed = s.committed + if outcome = .committed then 1 else 0 := by
  cases outcome <;> rfl

lemma rolledBack_recordEnd {outcome : Status} (h : outcome = .committed ∨ outcome = .rolledBack) :
    (s.recordEnd outcome).rolledBack =
      s.rolledBack + if outcome = .rolledBack then 1 else 0 := by
  rcases h with rfl | rfl <;> rfl

end Stats

/-- The manager strikes a transaction from its list, if it is there, and counts it. -/
def Manager.strike (x : Manager) (r : TxRef) (outcome : Status) : Manager :=
  if r ∈ x.registered then
    { x with
      registered := x.registered.erase r, active := x.active - 1
      stats := x.stats.recordEnd outcome }
  else x

/-- The list and the counts of a manager agree with the transactions, all of which are its own. -/
structure Manager.Balanced (x : Manager) (s : System) : Prop where
  nodup : x.registered.Nodup
  refers : ∀ r ∈ x.registered, r < s.transactions.size
  active : x.active = x.registered.length
  active_stats : x.stats.active = x.registered.length
  bounded : x.registered.length ≤ x.config.maxActive
  begun : x.stats.begun = s.transactions.size
  total : x.stats.begun = x.stats.committed + x.stats.rolledBack + x.registered.length
  /-- What is no longer in flight has ended. -/
  ended : ∀ r, r < s.transactions.size → r ∉ x.registered → (s.tx r).Ended
  committed : x.stats.committed =
    s.count fun r => r ∉ x.registered ∧ (s.tx r).status = .committed
  rolledBack : x.stats.rolledBack =
    s.count fun r => r ∉ x.registered ∧ (s.tx r).status = .rolledBack
  timedOut : x.stats.timedOut = s.count fun r => (s.tx r).timedOut = true

namespace Manager.Balanced

variable {x : Manager} {s t : System} {r : TxRef}

/-- The tallies of those that have ended are right as long as these, and their outcomes, stay. -/
lemma count_outcome {y : Manager}
    (h : ∀ r, r < t.transactions.size ∧ r ∉ y.registered ↔
      r < s.transactions.size ∧ r ∉ x.registered)
    (hs : ∀ r, r < s.transactions.size → r ∉ x.registered → (t.tx r).status = (s.tx r).status)
    (outcome : Status) :
    (t.count fun r => r ∉ y.registered ∧ (t.tx r).status = outcome) =
      s.count fun r => r ∉ x.registered ∧ (s.tx r).status = outcome := by
  refine System.count_congr fun r => ?_
  rw [← and_assoc, ← and_assoc, h r]
  exact and_congr_right fun hr => by rw [hs r hr.1 hr.2]

/-- What is in flight may change its status; what has ended stays so. -/
lemma keep (h : x.Balanced s) (hsize : t.transactions.size = s.transactions.size)
    (hs : ∀ r, (s.tx r).Ended → (t.tx r).status = (s.tx r).status) {timedOut heuristic : Nat}
    (hd : timedOut = t.count fun r => (t.tx r).timedOut = true) :
    ({ x with stats := { x.stats with timedOut, heuristic } } : Manager).Balanced t where
  nodup := h.nodup
  refers r hr := hsize.symm ▸ h.refers r hr
  active := h.active
  active_stats := h.active_stats
  bounded := h.bounded
  begun := h.begun.trans hsize.symm
  total := h.total
  ended r hr hn := by
    have hended := h.ended r (hsize ▸ hr) hn
    rw [Transaction.Ended, hs r hended]
    exact hended
  committed := h.committed.trans (count_outcome (by simp [hsize])
    (fun r hr hn => hs r (h.ended r hr hn)) _).symm
  rolledBack := h.rolledBack.trans (count_outcome (by simp [hsize])
    (fun r hr hn => hs r (h.ended r hr hn)) _).symm
  timedOut := hd

/-- One transaction changes, but not its timeout, and if it has ended not its outcome. -/
lemma modifyTx (h : x.Balanced s) {f : Transaction → Transaction}
    (ht : (f (s.tx r)).timedOut = (s.tx r).timedOut)
    (hs : (s.tx r).Ended → (f (s.tx r)).status = (s.tx r).status) :
    x.Balanced (s.modifyTx r f) := by
  refine h.keep (System.size_modifyTx ..) (fun q hq => ?_)
    (h.timedOut.trans (System.count_congr fun q => ?_).symm)
  · rw [System.tx_modifyTx]
    split
    next he =>
      rw [he.1] at hq ⊢
      exact hs hq
    next => rfl
  · rw [System.size_modifyTx, System.tx_modifyTx]
    split
    next he => rw [he.1, ht]
    next => rfl

/-- A timeout is noticed and counted. -/
lemma expire (h : x.Balanced s) {now : Nat} (hd : (s.tx r).isDue now = true) :
    ({ x with stats := { x.stats with timedOut := x.stats.timedOut + 1 } } : Manager).Balanced
      (s.modifyTx r Transaction.expire) := by
  simp only [Transaction.isDue, Transaction.isOverdue, Bool.and_eq_true, beq_iff_eq,
    Bool.not_eq_true', Option.any_eq_true] at hd
  obtain ⟨⟨⟨d, hd, -⟩, ha⟩, hf⟩ := hd
  have hlt : r < s.transactions.size := System.lt_size_of_status (by simp [ha])
  have hself := System.tx_modifyTx_self (s := s) Transaction.expire hlt
  have ht : (s.tx r).expire.timedOut = true := by
    rw [Transaction.expire, hd]
    rfl
  refine h.keep (System.size_modifyTx ..) (fun q hq => ?_) ?_
  · -- what is due is active, and so nothing that has ended is touched
    by_cases he : q = r
    · subst he
      rcases hq with hq | hq <;> simp [ha] at hq
    · rw [System.tx_modifyTx_of_ne _ he]
  · rw [h.timedOut]
    refine (System.count_insert (q := r) (by simp [hf]) fun q => ?_).symm
    rw [System.size_modifyTx]
    by_cases he : q = r
    · subst he
      simp [hself, ht, hlt]
    · simp [System.tx_modifyTx_of_ne _ he, he]

/-- One more transaction is begun, if there is room for it. -/
lemma enroll (h : x.Balanced s) (hx : x.active < x.config.maxActive) (timeout : Option Duration) :
    (x.enroll s.transactions.size).Balanced (s.push timeout) := by
  have hfresh : s.transactions.size ∉ x.registered := fun hm => (h.refers _ hm).false
  -- the new transaction is registered at once, and so those that are not are the same as before
  have hlt : ∀ r, r < (s.push timeout).transactions.size ∧
      r ∉ (x.enroll s.transactions.size).registered ↔
      r < s.transactions.size ∧ r ∉ x.registered := by
    intro r
    simp only [Manager.enroll, System.size_push, List.mem_append, List.mem_singleton, not_or]
    constructor
    · rintro ⟨hr, hn, hne⟩
      exact ⟨by omega, hn⟩
    · rintro ⟨hr, hn⟩
      exact ⟨by omega, hn, hr.ne⟩
  have htx : ∀ r, r < s.transactions.size → (s.push timeout).tx r = s.tx r :=
    fun r hr => System.tx_push_of_lt timeout hr
  have hout := count_outcome hlt fun r hr _ => congrArg Transaction.status (htx r hr)
  refine ⟨?_, fun r hr => ?_, ?_, ?_, ?_, ?_, ?_, fun r hr hn => ?_,
    h.committed.trans (hout _).symm, h.rolledBack.trans (hout _).symm,
    h.timedOut.trans (System.count_congr fun r => ?_).symm⟩
  · exact List.nodup_append.mpr ⟨h.nodup, List.nodup_singleton _, fun a ha b hb => by
      rw [List.mem_singleton.mp hb]
      exact fun he => hfresh (he ▸ ha)⟩
  · rw [System.size_push]
    rcases List.mem_append.mp hr with hr | hr
    · exact (h.refers r hr).trans (Nat.lt_succ_self _)
    · rw [List.mem_singleton.mp hr]
      exact Nat.lt_succ_self _
  · simp [Manager.enroll, h.active]
  · simp [Manager.enroll, h.active_stats]
  · rw [h.active] at hx
    simpa [Manager.enroll] using hx
  · simp [Manager.enroll, h.begun]
  · simp only [Manager.enroll, List.length_append, List.length_singleton]
    rw [h.total, Nat.add_assoc]
  · obtain ⟨hr, hn⟩ := (hlt r).mp ⟨hr, hn⟩
    rw [htx r hr]
    exact h.ended r hr hn
  · rw [System.size_push]
    rcases lt_trichotomy r s.transactions.size with hr | rfl | hr
    · simp [htx r hr, hr, hr.trans (Nat.lt_succ_self _)]
    · simp [System.tx_push_self]
    · exact iff_of_false (fun h' => by omega) fun h' => by omega

/-- What has ended is struck from the list, and one more is tallied under its outcome. -/
lemma count_erase (h : x.Balanced s) (hr : r ∈ x.registered) (outcome : Status) :
    (s.count fun q => q ∉ x.registered.erase r ∧ (s.tx q).status = outcome) =
      (s.count fun q => q ∉ x.registered ∧ (s.tx q).status = outcome) +
        if (s.tx r).status = outcome then 1 else 0 := by
  have hmem : ∀ q, q ∉ x.registered.erase r ↔ q = r ∨ q ∉ x.registered := by
    intro q
    rw [h.nodup.mem_erase_iff]
    tauto
  split
  next hs =>
    -- `r` is the one transaction that has come to the tally
    refine System.count_insert (q := r) (fun hn => hn.2.1 hr) fun q => ?_
    rw [hmem q]
    constructor
    · rintro ⟨hlt, rfl | hn, hq⟩
      · exact .inl rfl
      · exact .inr ⟨hlt, hn, hq⟩
    · rintro (rfl | ⟨hlt, hn, hq⟩)
      · exact ⟨h.refers q hr, .inl rfl, hs⟩
      · exact ⟨hlt, .inr hn, hq⟩
  next hs =>
    -- `r` is tallied under the other outcome
    refine System.count_congr fun q => ?_
    rw [hmem q]
    constructor
    · rintro ⟨hlt, rfl | hn, hq⟩
      · exact absurd hq hs
      · exact ⟨hlt, hn, hq⟩
    · rintro ⟨hlt, hn, hq⟩
      exact ⟨hlt, .inr hn, hq⟩

lemma strike (h : x.Balanced s) (he : (s.tx r).Ended) :
    (x.strike r (s.tx r).status).Balanced s := by
  unfold Manager.strike
  split
  next hr =>
    have hpos : 0 < x.registered.length := List.length_pos_of_mem hr
    have hlen : (x.registered.erase r).length = x.registered.length - 1 :=
      List.length_erase_of_mem hr
    have hc := x.stats.committed_recordEnd (s.tx r).status
    have hro := x.stats.rolledBack_recordEnd he
    -- it has ended in exactly one of the two ways, which keeps the total
    have hone : (if (s.tx r).status = .committed then 1 else 0) +
        (if (s.tx r).status = .rolledBack then 1 else 0) = 1 := by
      rcases he with he | he <;> simp [he]
    refine ⟨h.nodup.erase r, fun q hq => h.refers q (List.mem_of_mem_erase hq), ?_, ?_, ?_, ?_, ?_,
      fun q hlt hn => ?_, ?_, ?_, ?_⟩
    · rw [hlen, ← h.active]
    · rw [hlen, Stats.active_recordEnd, h.active_stats]
    · exact hlen.trans_le ((Nat.sub_le ..).trans h.bounded)
    · exact (Stats.begun_recordEnd ..).trans h.begun
    · have htotal := h.total
      dsimp only
      rw [Stats.begun_recordEnd]
      omega
    · by_cases hq : q = r
      · exact hq ▸ he
      · exact h.ended q hlt fun hm => hn ((List.mem_erase_of_ne hq).mpr hm)
    · rw [h.count_erase hr, ← h.committed]
      exact hc
    · rw [h.count_erase hr, ← h.rolledBack]
      exact hro
    · exact (Stats.timedOut_recordEnd ..).trans h.timedOut
  next => exact h

end Manager.Balanced

/-! ### Steps of a system -/

namespace System

variable {m : ManagerRef} {s t u : System} {r : TxRef} {n n' : Nat}

/-- A manager that there is, and whose list and counts agree with the transactions. -/
structure Balanced (m : ManagerRef) (s : System) : Prop where
  lt : m < s.managers.size
  balanced : (s.manager m).Balanced s

/-- The manager is balanced again after a step, in which it has counted `n` divergences. -/
structure Rebalances (m : ManagerRef) (n : Nat) (s t : System) : Prop where
  balanced : t.Balanced m
  size_le : s.transactions.size ≤ t.transactions.size
  /-- What was struck does not come back. -/
  gone : ∀ r, r < s.transactions.size → r ∉ (s.manager m).registered →
    r ∉ (t.manager m).registered
  heuristic : (t.manager m).stats.heuristic = (s.manager m).stats.heuristic + n

lemma Rebalances.trans (h : s.Rebalances m n t) (h' : t.Rebalances m n' u) :
    s.Rebalances m (n + n') u where
  balanced := h'.balanced
  size_le := h.size_le.trans h'.size_le
  gone r hr hn := h'.gone r (hr.trans_le h.size_le) (h.gone r hr hn)
  heuristic := h'.heuristic.trans ((congrArg (· + n') h.heuristic).trans (Nat.add_assoc ..))

/-- Transactions may have changed or come in, and then the manager changes. -/
lemma rebalances_modifyManager {f : Manager → Manager} (hm : m < s.managers.size)
    (hu : u.managers = s.managers) (hsize : s.transactions.size ≤ u.transactions.size)
    (hf : (f (s.manager m)).Balanced u)
    (hgone : ∀ r, r < s.transactions.size → r ∉ (s.manager m).registered →
      r ∉ (f (s.manager m)).registered)
    (hn : (f (s.manager m)).stats.heuristic = (s.manager m).stats.heuristic + n) :
    s.Rebalances m n (u.modifyManager m f) := by
  have hself : (u.modifyManager m f).manager m = f (s.manager m) := by
    rw [manager_modifyManager_self f (hu ▸ hm), manager, hu, manager]
  refine ⟨⟨?_, ?_⟩, hsize, fun r hr hn => ?_, ?_⟩
  · simpa [modifyManager, hu] using hm
  · rw [hself]
    exact hf.keep (t := u.modifyManager m f) rfl (fun _ _ => rfl) hf.timedOut
  · rw [hself]
    exact hgone r hr hn
  · rw [hself]
    exact hn

/-- Neither the manager nor any transaction is concerned. -/
lemma Balanced.congr (h : s.Balanced m) (ht : t.transactions = s.transactions)
    (hm : t.managers = s.managers) : s.Rebalances m 0 t := by
  have hmanager : t.manager m = s.manager m := by rw [manager, hm, manager]
  have htx : ∀ r, t.tx r = s.tx r := fun r => by rw [tx, ht, tx]
  have hsize : t.transactions.size = s.transactions.size := congrArg _ ht
  refine ⟨⟨hm.symm ▸ h.lt, ?_⟩, hsize.ge, fun r _ hn => hmanager.symm ▸ hn, by rw [hmanager]; rfl⟩
  rw [hmanager]
  exact h.balanced.keep hsize (fun r _ => congrArg _ (htx r))
    (h.balanced.timedOut.trans (count_congr fun r => by rw [hsize, htx r]).symm)

lemma Balanced.refl (h : s.Balanced m) : s.Rebalances m 0 s := h.congr rfl rfl

lemma Balanced.modifyTx (h : s.Balanced m) {f : Transaction → Transaction}
    (ht : (f (s.tx r)).timedOut = (s.tx r).timedOut)
    (hs : (s.tx r).Ended → (f (s.tx r)).status = (s.tx r).status) :
    s.Rebalances m 0 (s.modifyTx r f) :=
  ⟨⟨h.lt, h.balanced.modifyTx ht hs⟩, (size_modifyTx ..).ge, fun _ _ hn => hn, rfl⟩

/-- A bystander changes one transaction. -/
lemma Balanced.bystand (h : s.Balanced m) {f : Transaction → Transaction}
    (ht : (f (s.tx r)).timedOut = (s.tx r).timedOut) (hu : (s.tx r).Undisturbed (f (s.tx r))) :
    s.Rebalances m 0 (s.modifyTx r f) :=
  h.modifyTx ht fun he => (hu.keeps (.inr he)).ended he

lemma Balanced.begin (h : s.Balanced m) {timeout : Option Duration}
    (hb : s.begin m timeout = .ok (r, t)) : s.Rebalances m 0 t := by
  obtain ⟨hlt, -, timeout', rfl⟩ := begin_ok hb
  refine rebalances_modifyManager h.lt rfl ((size_push s timeout').symm ▸ Nat.le_succ _)
    (h.balanced.enroll hlt timeout') (fun q hq hn hm => ?_) rfl
  exact (List.mem_append.mp hm).elim hn fun he => hq.ne (List.mem_singleton.mp he)

lemma Balanced.expireIfDue (h : s.Balanced m) (r : TxRef) :
    s.Rebalances m 0 (s.expireIfDue m r).2 := by
  unfold System.expireIfDue
  split
  next hd =>
    exact rebalances_modifyManager h.lt rfl (size_modifyTx ..).ge (h.balanced.expire hd)
      (fun _ _ hn => hn) rfl
  next => exact h.refl

end System

/-- An operation concerns no other manager. -/
def Operation.Concerns (m : ManagerRef) : Operation → Prop
  | addManager .. => False
  | begin m' _ | force m' _ | expire m' _ => m' = m
  | _ => True

section Steps

variable {m : ManagerRef} {s t : System}

lemma Operation.Touches.rebalances {o : Operation} (h : Touches s o t) (ho : o.Concerns m)
    (hs : s.Balanced m) : s.Rebalances m 0 t := by
  cases h with
  | nothing => exact hs.refl
  | waited _ => exact hs.congr rfl rfl
  | added _ _ => exact ho.elim
  | began hb =>
    obtain rfl := ho
    exact hs.begin hb
  | enlisted hx =>
    exact hs.bystand (Transaction.unconcerned_enlist hx).timedOut
      (Transaction.undisturbed_enlist hx)
  | delisted hx =>
    exact hs.bystand (Transaction.unconcerned_delist hx).timedOut
      (Transaction.undisturbed_delist hx)
  | registered hx =>
    exact hs.bystand (Transaction.unconcerned_register hx).timedOut
      (Transaction.undisturbed_register hx)
  | marked hx =>
    exact hs.bystand (Transaction.unconcerned_markRollbackOnly hx).timedOut
      (Transaction.undisturbed_markRollbackOnly hx)
  | forced _ hx =>
    exact hs.bystand (Transaction.unconcerned_markRollbackOnly hx).timedOut
      (Transaction.undisturbed_markRollbackOnly hx)
  | looked _ r =>
    obtain rfl := ho
    exact hs.expireIfDue r

lemma System.Balanced.release (hs : s.Balanced m) (r : TxRef) (k : TaskId) :
    s.Rebalances m 0 (s.modifyTx r (·.release k)) := by
  refine hs.bystand ?_ (Transaction.undisturbed_release ..)
  unfold Transaction.release
  split <;> rfl

lemma Context.Touches.rebalances {c c' : Context} (h : c.Touches s c' t) (hc : c.manager = m)
    (hs : s.Balanced m) : s.Rebalances m 0 t ∧ c'.manager = m := by
  subst hc
  cases h with
  | nothing _ => exact ⟨hs.refl, rfl⟩
  | began _ hb _ =>
    have hbegin := hs.begin hb
    exact ⟨hbegin.trans (hbegin.balanced.modifyTx rfl fun _ => rfl), rfl⟩
  | claimed _ _ hx =>
    refine ⟨hs.bystand ?_ (Transaction.undisturbed_claim hx), rfl⟩
    obtain ⟨-, rfl⟩ := Transaction.claim_ok hx
    rfl
  | released _ => exact ⟨hs.release _ c.task, rfl⟩
  | marked hx =>
    exact ⟨hs.bystand (Transaction.unconcerned_markRollbackOnly hx).timedOut
      (Transaction.undisturbed_markRollbackOnly hx), rfl⟩

lemma Request.Looks.rebalances {r : TxRef} {how : Ending} (h : Looks m r how s t)
    (hs : s.Balanced m) : s.Rebalances m 0 t := by
  cases h with
  | nothing => exact hs.refl
  | expired _ => exact hs.expireIfDue r

/-- What the diary tells of an act is what the manager has counted. -/
lemma Completion.Acts.rebalances {c : Completion} {g g' : Diary} (h : c.Acts g s t g')
    (hs : s.Balanced c.manager) : ∃ n, g'.divergences = g.divergences + n ∧
      s.Rebalances c.manager n t ∧ (g'.struck = true → g.struck = true ∨
        c.tx < s.transactions.size ∧ c.tx ∉ (t.manager c.manager).registered) := by
  cases h with
  | moves hlt h =>
    refine ⟨0, rfl, hs.modifyTx h.timedOut fun he => ?_, .inl⟩
    -- the status moves only along the state machine, which does not leave an end
    rcases h.status with hsame | hnext
    · exact hsame
    · rw [he.next_eq_nil] at hnext
      cases hnext
  | strikes he =>
    have hlt : c.tx < s.transactions.size := System.lt_size_of_status fun hn => by
      rcases he with he | he <;> rw [hn] at he <;> cases he
    have hgone : ∀ r, r = c.tx ∨ r ∉ (s.manager c.manager).registered →
        r ∉ ((s.manager c.manager).strike c.tx (s.tx c.tx).status).registered := by
      intro r hr
      unfold Manager.strike
      split
      next =>
        rw [hs.balanced.nodup.mem_erase_iff]
        exact fun hm => hr.elim hm.1 fun hn => hn hm.2
      next hn => exact hr.elim (fun he => he ▸ hn) fun hr => hr
    have hn : ((s.manager c.manager).strike c.tx (s.tx c.tx).status).stats.heuristic =
        (s.manager c.manager).stats.heuristic + 0 := by
      unfold Manager.strike
      split <;> simp
    refine ⟨0, rfl, System.rebalances_modifyManager hs.lt rfl le_rfl (hs.balanced.strike he)
      (fun r _ hr => hgone r (.inr hr)) hn, fun _ => .inr ⟨hlt, ?_⟩⟩
    rw [Completion.unregister, System.manager_modifyManager_self _ hs.lt]
    exact hgone c.tx (.inl rfl)
  | counts _ =>
    exact ⟨1, rfl, System.rebalances_modifyManager hs.lt rfl le_rfl
      (hs.balanced.keep rfl (fun _ _ => rfl) hs.balanced.timedOut) (fun _ _ hn => hn) rfl, .inl⟩

end Steps

/-! ### Programs with a single manager -/

/-- Whether a request is a commit whose answer was that participants diverged. -/
def Request.diverged (x : Request) : Bool :=
  match x.how, x.progress with
  | .commit, .done _ (.error e) => e.isHeuristic
  | _, _ => false

namespace Machine

/-- A step of a program that uses no other manager. -/
inductive StepAt (m : ManagerRef) : Machine → Machine → Prop
  | operate {M : Machine} (o : Operation) (ho : o.Concerns m) : StepAt m M (M.operate o)
  | openContext {M : Machine} : StepAt m M (M.openContext m)
  | useContext {M : Machine} {k : Nat} {c : Context} (hc : M.contexts[k]? = some (some c))
      (o : ContextOperation) (ho : o.Refers M.system) :
    StepAt m M { M with
      system := (o.apply c M.system).2
      contexts := M.contexts.set k (some (o.apply c M.system).1) }
  | dropContext {M : Machine} {k : Nat} {c : Context} (hc : M.contexts[k]? = some (some c)) :
    StepAt m M { M with system := c.drop M.system, contexts := M.contexts.set k none }
  | request {M : Machine} (how : Ending) {r : TxRef} (hr : r < M.system.transactions.size) :
    StepAt m M { M with
      system := (how.proc m r M.system).system
      requests := M.requests ++ [.start how m r M.system (how.proc m r M.system)] }
  | requestWithin {M : Machine} (how : Ending) {k : Nat} {c : Context} {r : TxRef}
      (hc : M.contexts[k]? = some (some c)) (hr : c.current = some r)
      (hs : r < M.system.transactions.size) :
    StepAt m M { M with
      system := (c.enter how M.system).2.system
      contexts := M.contexts.set k (some (c.enter how M.system).1)
      requests := M.requests ++ [.start how c.manager r M.system (c.enter how M.system).2] }
  | answer {M : Machine} {i : Nat} {request : Request} {s : System} {q : Question}
      {next : System → q.Answer → Dialogue (Except TxError Unit)}
      (hi : M.requests[i]? = some request) (hp : request.progress = .ask s q next) (a : q.Answer) :
    StepAt m M { M with
      system := (next M.system a).system
      requests := M.requests.set i (request.resume q a M.system (next M.system a)) }

/-- A program with one manager may come to this. -/
def Solitary (M : Machine) : Prop :=
  ∃ clock seed config log, Relation.ReflTransGen (StepAt 0)
    ((initial clock seed).operate (.addManager config log)) M

variable {m : ManagerRef} {d : Nat → Diary} {M M' : Machine} {s t : System}
  {cs cs' : List (Option Context)} {xs : List Request} {x y : Request} {i n : Nat}

lemma StepAt.step (h : StepAt m M M') : Step M M' := by
  cases h with
  | operate o _ => exact .operate o
  | openContext => exact .openContext m
  | useContext hc o ho => exact .useContext hc o ho
  | dropContext hc => exact .dropContext hc
  | request how hr => exact .request how m hr
  | requestWithin how hc hr hs => exact .requestWithin how hc hr hs
  | answer hi hp a => exact .answer hi hp a

lemma Solitary.reachable (h : M.Solitary) : M.Reachable := by
  obtain ⟨clock, seed, config, log, h⟩ := h
  exact ((reachable_initial clock seed).operate _).steps
    (Relation.ReflTransGen.mono (fun _ _ hs => hs.step) _ _ h)

/-- The manager is balanced, and of each completion there is a diary that tells what it has done
there. -/
structure Audited (m : ManagerRef) (d : Nat → Diary) (M : Machine) : Prop where
  balanced : M.system.Balanced m
  contexts : ∀ c, some c ∈ M.contexts → c.manager = m
  requests : ∀ x ∈ M.requests, x.manager = m
  kept : ∀ (i : Nat) (x : Request), M.requests[i]? = some x → x.Accepted → ∃ c, x.Kept c (d i)
  /-- Who was not admitted has done nothing. -/
  blank : ∀ i, (∀ x, M.requests[i]? = some x → ¬x.Accepted) → d i = {}
  struck : ∀ (i : Nat) (x : Request), M.requests[i]? = some x → (d i).struck = true →
    x.tx < M.system.transactions.size ∧ x.tx ∉ (M.system.manager m).registered
  heuristic : (M.system.manager m).stats.heuristic =
    ∑ i ∈ Finset.range M.requests.length, (d i).divergences

/-- No request is concerned. -/
lemma Audited.rebalances (h : Audited m d ⟨s, cs, xs⟩) (ht : s.Rebalances m 0 t)
    (hcs : ∀ c, some c ∈ cs' → c.manager = m) : Audited m d ⟨t, cs', xs⟩ where
  balanced := ht.balanced
  contexts := hcs
  requests := h.requests
  kept := h.kept
  blank := h.blank
  struck i x hi hd := by
    obtain ⟨hlt, hn⟩ := h.struck i x hi hd
    exact ⟨hlt.trans_le ht.size_le, ht.gone x.tx hlt hn⟩
  heuristic := ht.heuristic.trans h.heuristic

/-- A new request has done nothing yet. -/
lemma Audited.concat (h : Audited m d ⟨s, cs, xs⟩) (hx : x.manager = m) (ha : ¬x.Accepted) :
    Audited m d ⟨s, cs, xs ++ [x]⟩ := by
  have hblank : d xs.length = {} := h.blank xs.length fun y hy => by
    rw [List.getElem?_eq_none le_rfl] at hy
    cases hy
  refine ⟨h.balanced, h.contexts, fun y hy => ?_, fun i y hi hy => ?_, fun i hi => ?_,
    fun i y hi hd => ?_, ?_⟩
  · rcases List.mem_append.mp hy with hy | hy
    · exact h.requests y hy
    · exact List.mem_singleton.mp hy ▸ hx
  · rcases getElem?_concat_cases hi with hi | ⟨-, rfl⟩
    · exact h.kept i y hi hy
    · exact absurd hy ha
  · exact h.blank i fun y hy => hi y
      ((List.getElem?_append_left (List.getElem?_eq_some_iff.mp hy).1).trans hy)
  · rcases getElem?_concat_cases hi with hi | ⟨rfl, -⟩
    · exact h.struck i y hi hd
    · rw [hblank] at hd
      cases hd
  · dsimp only
    rw [List.length_append, List.length_singleton, Finset.sum_range_succ, hblank]
    exact h.heuristic

/-- One diary tells of `n` more divergences. -/
lemma sum_divergences_update {k : Nat} {g : Diary} (hi : i < k)
    (hg : g.divergences = (d i).divergences + n) :
    ∑ j ∈ Finset.range k, (Function.update d i g j).divergences =
      ∑ j ∈ Finset.range k, (d j).divergences + n := by
  have hmem : i ∈ Finset.range k := Finset.mem_range.mpr hi
  have hrest : ∑ j ∈ (Finset.range k).erase i, (Function.update d i g j).divergences =
      ∑ j ∈ (Finset.range k).erase i, (d j).divergences :=
    Finset.sum_congr rfl fun j hj => by rw [Function.update_of_ne (Finset.ne_of_mem_erase hj)]
  rw [← Finset.add_sum_erase _ _ hmem, ← Finset.add_sum_erase _ _ hmem, hrest,
    Function.update_self, hg]
  omega

/-- A request goes on. -/
lemma Audited.set (h : Audited m d ⟨s, cs, xs⟩) (hi : xs[i]? = some x) {g : Diary}
    (ht : s.Rebalances m n t) (hg : g.divergences = (d i).divergences + n)
    (hy : y.tx = x.tx ∧ y.manager = x.manager) (hkept : y.Accepted → ∃ c, y.Kept c g)
    (hblank : ¬y.Accepted → g = {})
    (hstruck : g.struck = true → (d i).struck = true ∨
      x.tx < s.transactions.size ∧ x.tx ∉ (t.manager m).registered) :
    Audited m (Function.update d i g) ⟨t, cs, xs.set i y⟩ := by
  have hlt : i < xs.length := (List.getElem?_eq_some_iff.mp hi).1
  refine ⟨ht.balanced, h.contexts, fun z hz => ?_, fun j z hj hz => ?_, fun j hj => ?_,
    fun j z hj hd => ?_, ?_⟩
  · rcases List.mem_or_eq_of_mem_set hz with hz | rfl
    · exact h.requests z hz
    · exact hy.2.trans (h.requests x (List.mem_of_getElem? hi))
  · rcases getElem?_set_cases hj with ⟨hne, hj⟩ | ⟨rfl, rfl⟩
    · rw [Function.update_of_ne hne]
      exact h.kept j z hj hz
    · rw [Function.update_self]
      exact hkept hz
  · by_cases hji : j = i
    · subst hji
      rw [Function.update_self]
      exact hblank (hj y (List.getElem?_set_self hlt))
    · rw [Function.update_of_ne hji]
      exact h.blank j fun z hz => hj z ((List.getElem?_set_ne (Ne.symm hji)).trans hz)
  · have hold : ∀ {z : Request}, xs[j]? = some z → (d j).struck = true →
        z.tx < t.transactions.size ∧ z.tx ∉ (t.manager m).registered := by
      intro z hz hd
      obtain ⟨hlt, hn⟩ := h.struck j z hz hd
      exact ⟨hlt.trans_le ht.size_le, ht.gone z.tx hlt hn⟩
    rcases getElem?_set_cases hj with ⟨hne, hj⟩ | ⟨rfl, rfl⟩
    · rw [Function.update_of_ne hne] at hd
      exact hold hj hd
    · rw [Function.update_self] at hd
      rw [hy.1]
      rcases hstruck hd with hd | ⟨hlt, hn⟩
      · exact hold hi hd
      · exact ⟨hlt.trans_le ht.size_le, hn⟩
  · have hheuristic : (s.manager m).stats.heuristic =
        ∑ j ∈ Finset.range xs.length, (d j).divergences := h.heuristic
    dsimp only
    rw [List.length_set, ht.heuristic, hheuristic, sum_divergences_update hlt hg]

/-- Each context belongs to the manager still, when one of them has changed. -/
lemma Audited.contexts_set (h : Audited m d M) {k : Nat} {c' : Option Context}
    (hc' : ∀ e, c' = some e → e.manager = m) :
    ∀ e, some e ∈ M.contexts.set k c' → e.manager = m := by
  intro e he
  rcases List.mem_or_eq_of_mem_set he with he | he
  · exact h.contexts e he
  · exact hc' e he.symm

lemma manager_enter (how : Ending) (c : Context) (s : System) :
    (c.enter how s).1.manager = c.manager := by
  unfold Context.enter Context.takeOwned
  cases c.current with
  | none => rfl
  | some r => by_cases ho : (s.tx r).owner = some c.task <;> simp [ho]

/-- Nothing is taken by a request alone. -/
lemma not_accepted_start {how : Ending} {r : TxRef} {d : Dialogue (Except TxError Unit)}
    (h : Request.Harmless m r how s d.system) : ¬(Request.start how m r s d).Accepted := by
  rintro ⟨p, hp, ho, ht⟩
  obtain rfl := List.mem_singleton.mp hp
  exact (h.opens ho).not_taken ht

lemma Audited.step (hM : M.Reachable) (h : Audited m d M) (hs : StepAt m M M') :
    ∃ d', Audited m d' M' := by
  have hb := h.balanced
  cases hs with
  | operate o ho => exact ⟨d, h.rebalances ((o.touches_apply M.system).rebalances ho hb) h.contexts⟩
  | openContext =>
    refine ⟨d, h.rebalances (hb.congr rfl rfl) fun c hc => ?_⟩
    rcases List.mem_append.mp hc with hc | hc
    · exact h.contexts c hc
    · obtain rfl := Option.some.inj (List.mem_singleton.mp hc)
      rfl
  | @useContext k c hc o _ =>
    obtain ⟨ht, hm⟩ := (o.touches_apply c M.system).rebalances
      (h.contexts c (List.mem_of_getElem? hc)) hb
    exact ⟨d, h.rebalances ht (h.contexts_set fun e he => Option.some.inj he ▸ hm)⟩
  | @dropContext k c hc =>
    obtain ⟨ht, -⟩ := (c.touches_suspend M.system).rebalances
      (h.contexts c (List.mem_of_getElem? hc)) hb
    exact ⟨d, h.rebalances ht (h.contexts_set nofun)⟩
  | @request how r hr =>
    have hsys := (station_proc how m (r := r) (s := M.system) rfl).1
    rw [hsys]
    exact ⟨d, h.concat rfl (not_accepted_start (hsys.symm ▸ .nothing))⟩
  | @requestWithin how k c r hc hr hlt =>
    have hm := h.contexts c (List.mem_of_getElem? hc)
    have hcs : ∀ e, some e ∈ M.contexts.set k (some (c.enter how M.system).1) → e.manager = m :=
      h.contexts_set fun e he => Option.some.inj he ▸ (manager_enter how c M.system).trans hm
    rcases enter_cases hr how M.system with ⟨why, he⟩ | he
    · rw [he]
      exact ⟨d, (h.rebalances hb.refl hcs).concat hm (not_accepted_start .nothing)⟩
    · have hsys := (station_proc how c.manager (r := r)
        (s := M.system.modifyTx r (·.release c.task)) rfl).1
      rw [he, hsys]
      exact ⟨d, (h.rebalances (hb.release r c.task) hcs).concat hm
        (not_accepted_start (hsys.symm ▸ .released c.task))⟩
  | @answer i x s₀ q next hi hp a =>
    obtain ⟨owner, hsound⟩ := hM.sound
    have hm := h.requests x (List.mem_of_getElem? hi)
    have hblank : ¬x.Accepted → d i = {} := fun ha => h.blank i fun z hz =>
      Option.some.inj (hi.symm.trans hz) ▸ ha
    -- a request waits, takes the transaction with this answer, or has taken it before
    rcases hsound.answer hi hp a with ⟨hl, hna⟩ | ⟨-, htake, hna, -, c, hk⟩ | ⟨ha, -, hacts⟩
    · exact ⟨_, h.set hi (n := 0) (g := d i) ((hm ▸ hl).rebalances hb) rfl ⟨rfl, rfl⟩
        (fun ha => absurd ha hna) (fun _ => hblank fun ha => hna (ha.resume ..)) .inl⟩
    · have ht : M.system.Rebalances m 0 (next M.system a).system := by
        rw [htake]
        exact hb.modifyTx rfl fun _ => rfl
      exact ⟨_, h.set hi (g := d i) ht rfl ⟨rfl, rfl⟩ (fun _ => ⟨c, hblank hna ▸ hk⟩)
        (fun _ => hblank hna) .inl⟩
    · obtain ⟨c, hk⟩ := h.kept i x hi ha
      obtain ⟨g, hg, hk'⟩ := hacts c (d i) hk
      obtain rfl := hk.manager.trans hm
      obtain ⟨n, hn, ht, hstruck⟩ := hg.rebalances hb
      exact ⟨_, h.set hi ht hn ⟨rfl, rfl⟩ (fun _ => ⟨c, hk'⟩)
        (fun hna => absurd (ha.resume ..) hna) (hk.tx ▸ hstruck)⟩

lemma Solitary.audited (h : M.Solitary) : ∃ d, Audited 0 d M := by
  obtain ⟨clock, seed, config, log, h⟩ := h
  have hM₀ := (reachable_initial clock seed).operate (.addManager config log)
  suffices h : M.Reachable ∧ ∃ d, Audited 0 d M from h.2
  induction h with
  | refl =>
    refine ⟨hM₀, fun _ => {}, ⟨Nat.zero_lt_one, ?_⟩, nofun, nofun, nofun, fun _ _ => rfl, nofun,
      rfl⟩
    exact ⟨List.nodup_nil, nofun, rfl, rfl, Nat.zero_le _, rfl, rfl, nofun, rfl, rfl, rfl⟩
  | tail _ hs ih =>
    obtain ⟨hM, d, hd⟩ := ih
    exact ⟨hM.steps (.single hs.step), hd.step hM hs⟩

/-! ### When all is through -/

/-- The only manager. -/
abbrev sole (M : Machine) : Manager := M.system.manager 0

/-- Every completion has come to its end. -/
def AtRest (M : Machine) : Prop := ∀ x ∈ M.requests, ∃ s result, x.progress = .done s result

/-- What has ended is in flight no more. -/
lemma Audited.registered_iff (hM : M.Reachable) (h : Audited m d M) (hrest : M.AtRest) (r : TxRef) :
    r ∈ (M.system.manager m).registered ↔
      r < M.system.transactions.size ∧ ¬(M.system.tx r).Ended := by
  constructor
  · intro hr
    have hlt := h.balanced.balanced.refers r hr
    refine ⟨hlt, fun he => ?_⟩
    obtain ⟨owner, hsound⟩ := hM.sound
    cases ho : owner r with
    | none => exact (hsound.free r hlt ho).not_taken (.inr he)
    | some i =>
      -- the request that has taken it is through, and has struck it
      obtain ⟨x, hi, rfl⟩ := hsound.held r i ho
      obtain ⟨c, hk⟩ := h.kept i x hi (hsound.inside i x hi ho).2
      obtain ⟨t, result, hp⟩ := hrest x (List.mem_of_getElem? hi)
      have htracks := hk.tracks
      rw [hp] at htracks
      exact (h.struck i x hi htracks.2.struck).2 hr
  · rintro ⟨hlt, hn⟩
    by_contra hr
    exact hn (h.balanced.balanced.ended r hlt hr)

/-- The tally of an outcome is of all that have come to it. -/
lemma Audited.count_outcome (hM : M.Reachable) (h : Audited m d M) (hrest : M.AtRest)
    {outcome : Status} (ho : outcome = .committed ∨ outcome = .rolledBack) :
    (M.system.count fun r =>
      r ∉ (M.system.manager m).registered ∧ (M.system.tx r).status = outcome) =
      M.system.count fun r => (M.system.tx r).status = outcome := by
  refine System.count_congr fun r => and_congr_right fun hr => and_iff_right_of_imp fun hs hm => ?_
  refine ((h.registered_iff hM hrest r).mp hm).2 ?_
  rw [Transaction.Ended, hs]
  exact ho

/-- The diary of a completion that is through tells of the divergence that it has returned. -/
lemma Audited.divergences (hM : M.Reachable) (h : Audited m d M) (hi : M.requests[i]? = some x)
    {t : System} {result : Except TxError Unit} (hp : x.progress = .done t result) :
    (d i).divergences = x.diverged.toNat := by
  have hx := List.mem_of_getElem? hi
  by_cases ha : x.Accepted
  · obtain ⟨c, hk⟩ := h.kept i x hi ha
    have htracks := hk.tracks
    rw [hp] at htracks
    rw [htracks.2.divergences]
    cases hhow : x.how with
    | commit => cases result <;> simp [Request.diverged, hhow, hp, reported]
    | rollback =>
      -- an accepted rollback returns no error
      obtain ⟨c, -, -, houtcome, -⟩ := hM.outcome hx ha hp
      rw [hhow] at houtcome
      cases houtcome
      simp [Request.diverged, hhow, reported]
  · -- who was refused has noted nothing, and returned no divergence
    obtain ⟨owner, hsound⟩ := hM.sound
    have hout := hsound.outside i x hi fun ho => ha (hsound.inside i x hi ho).2
    obtain ⟨why, rfl⟩ := hout.station.result hp
    rw [h.blank i fun z hz => Option.some.inj (hi.symm.trans hz) ▸ ha]
    cases hhow : x.how <;> simp [Request.diverged, hhow, hp, TxError.isHeuristic]

/-- To add up over the places of a list is to count. -/
lemma sum_eq_countP {xs : List Request} {f : Nat → Nat} {p : Request → Bool}
    (h : ∀ i x, xs[i]? = some x → f i = (p x).toNat) :
    ∑ i ∈ Finset.range xs.length, f i = xs.countP p := by
  induction xs using List.reverseRecOn with
  | nil => rfl
  | append_singleton xs x ih =>
    have hxs := ih fun i y hy => h i y
      ((List.getElem?_append_left (List.getElem?_eq_some_iff.mp hy).1).trans hy)
    rw [List.length_append, List.length_singleton, Finset.sum_range_succ, hxs,
      h xs.length x List.getElem?_concat_length, List.countP_append, List.countP_singleton]
    cases p x <;> rfl

/-- The list and the counts of the only manager. They agree at any time and stay within the limit,
at which a begin is refused and changes nothing, and there is always something to count down from.
When all is through, the list says what has not ended, and the tallies what has become of the
others. -/
theorem counts_balanced (hM : M.Solitary) :
    (M.sole.registered.Nodup ∧ M.sole.active = M.sole.registered.length ∧
      M.sole.stats.active = M.sole.registered.length ∧ M.sole.active ≤ M.sole.config.maxActive) ∧
    (∀ timeout e, M.system.begin 0 timeout = .error e ↔
      M.sole.active = M.sole.config.maxActive ∧ e = .resourceExhausted M.sole.config.maxActive) ∧
    (∀ timeout e, M.system.begin 0 timeout = .error e → M.operate (.begin 0 timeout) = M) ∧
    (∀ (c : Completion) (outcome : Status), c.manager = 0 → c.tx ∈ M.sole.registered →
      ((c.unregister outcome M.system).manager 0).active + 1 = M.sole.active ∧
      ((c.unregister outcome M.system).manager 0).stats.active + 1 = M.sole.stats.active) ∧
    (M.AtRest →
      (∀ r, r ∈ M.sole.registered ↔ r < M.system.transactions.size ∧ ¬(M.system.tx r).Ended) ∧
      M.sole.stats.begun = M.system.transactions.size ∧
      M.sole.stats.begun =
        M.sole.stats.committed + M.sole.stats.rolledBack + M.sole.stats.active ∧
      M.sole.stats.committed = (M.system.count fun r => (M.system.tx r).status = .committed) ∧
      M.sole.stats.rolledBack = (M.system.count fun r => (M.system.tx r).status = .rolledBack) ∧
      M.sole.stats.timedOut = (M.system.count fun r => (M.system.tx r).timedOut = true) ∧
      M.sole.stats.heuristic = M.requests.countP (·.diverged)) := by
  have hreach := hM.reachable
  obtain ⟨d, h⟩ := hM.audited
  have hb := h.balanced.balanced
  refine ⟨⟨hb.nodup, hb.active, hb.active_stats, hb.active ▸ hb.bounded⟩, fun timeout e => ?_,
    fun timeout e he => ?_, fun c outcome hc hr => ?_, fun hrest => ⟨?_, hb.begun, ?_, ?_, ?_,
    hb.timedOut, ?_⟩⟩
  · rw [System.begin_eq_error_iff]
    exact and_congr_left fun _ =>
      ⟨fun hle => (hb.active ▸ hb.bounded).antisymm hle, fun he => he.ge⟩
  · rw [operate, Operation.apply, he]
  · have hpos : 0 < M.sole.registered.length := List.length_pos_of_mem hr
    rw [Completion.unregister, hc, System.manager_modifyManager_self _ h.balanced.lt, if_pos hr]
    dsimp only
    rw [Stats.active_recordEnd]
    exact ⟨Nat.sub_add_cancel (hb.active ▸ hpos), Nat.sub_add_cancel (hb.active_stats ▸ hpos)⟩
  · exact h.registered_iff hreach hrest
  · rw [hb.total, hb.active_stats]
  · exact hb.committed.trans (h.count_outcome hreach hrest (.inl rfl))
  · exact hb.rolledBack.trans (h.count_outcome hreach hrest (.inr rfl))
  · refine h.heuristic.trans (sum_eq_countP fun i x hi => ?_)
    obtain ⟨t, result, hp⟩ := hrest x (List.mem_of_getElem? hi)
    exact h.divergences hreach hi hp

/-- Both participants vote to commit, and then one of them has not kept its word. -/
def broken : (q : Question) → q.Answer
  | .commit k _ _ => if k.ref = 1 then .error .heuristicMixed else .ok ()
  | q => Dialogue.someAnswer q

/-- A manager with room for two: of two transactions one is committed, and another one is begun. -/
def replaced : Machine :=
  let begun := (((initial 0 0).operate (.addManager { maxActive := 2 } 0)).operate
    (.begin 0 none)).operate (.begin 0 none)
  let enlisted := (begun.operate (.enlist 0 { ref := 1, id := ⟨"a"⟩ })).operate
    (.enlist 0 { ref := 2, id := ⟨"b"⟩ })
  ((answer broken 0)^[20] (enlisted.request .commit 0 0)).operate (.begin 0 none)

lemma Solitary.step (h : M.Solitary) (hs : StepAt 0 M M') : M'.Solitary := by
  obtain ⟨clock, seed, config, log, h⟩ := h
  exact ⟨clock, seed, config, log, h.tail hs⟩

lemma Solitary.request (h : M.Solitary) (how : Ending) (r : TxRef) :
    (M.request how 0 r).Solitary := by
  unfold Machine.request
  split
  next hr => exact h.step (.request how hr)
  next => exact h

lemma Solitary.answer (h : M.Solitary) (reply : (q : Question) → q.Answer) (i : Nat) :
    (M.answer reply i).Solitary := by
  unfold Machine.answer
  split
  next => exact h
  next x hx =>
    split
    next => exact h
    next hp => exact h.step (.answer hx hp _)

lemma Solitary.answers (h : M.Solitary) (reply : (q : Question) → q.Answer) (i n : Nat) :
    ((Machine.answer reply i)^[n] M).Solitary := by
  induction n with
  | zero => exact h
  | succ n ih =>
    rw [Function.iterate_succ_apply']
    exact ih.answer reply i

theorem counts_balanced_replaced :
    replaced.Solitary ∧ replaced.AtRest ∧
    (∀ r, r ∈ [1, 2] ↔ r < replaced.system.transactions.size ∧ ¬(replaced.system.tx r).Ended) ∧
    replaced.sole.stats.committed = 1 ∧
    (replaced.system.count fun r => (replaced.system.tx r).status = .committed) = 1 ∧
    replaced.requests.countP (·.diverged) = 1 ∧
    replaced.system.begin 0 none = .error (.resourceExhausted 2) ∧
    replaced.operate (.begin 0 none) = replaced := by
  have hbegun : (((initial 0 0).operate (.addManager { maxActive := 2 } 0)).operate
      (.begin 0 none)).Solitary := ⟨0, 0, _, _, .single (.operate _ rfl)⟩
  have hM : replaced.Solitary :=
    ((((((hbegun.step (.operate (.begin 0 none) rfl)).step (.operate (.enlist 0 _) trivial)).step
      (.operate (.enlist 0 _) trivial)).request ..).answers broken 0 20).step
      (.operate (.begin 0 none) rfl))
  have hrest : replaced.AtRest := by
    intro x hx
    obtain rfl := List.mem_singleton.mp hx
    exact ⟨_, _, rfl⟩
  obtain ⟨-, hfull, hrefused, -, hthrough⟩ := counts_balanced hM
  obtain ⟨hregistered, -, -, hcommitted, -, -, hheuristic⟩ := hthrough hrest
  have hlist : replaced.sole.registered = [1, 2] := by decide +kernel
  have hone : replaced.sole.stats.committed = 1 ∧ replaced.sole.stats.heuristic = 1 := by
    decide +kernel
  have hbegin : replaced.system.begin 0 none = .error (.resourceExhausted 2) :=
    (hfull none _).mpr ⟨by decide +kernel, rfl⟩
  exact ⟨hM, hrest, fun r => hlist ▸ hregistered r, hone.1, hcommitted.symm.trans hone.1,
    hheuristic.symm.trans hone.2, hbegin, hrefused none _ hbegin⟩

end Machine

end TwoPhaseCommit
