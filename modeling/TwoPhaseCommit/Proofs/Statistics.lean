import Mathlib.Data.List.Perm.Subperm
import TwoPhaseCommit.Proofs.Obligations

/-!
# What a pass counts

The statistics of a pass balance. Each of its loops counts on where the one before it stopped, and
of each loop there are two things to say: which counters it leaves alone, and by how much it moves
the others.
-/

namespace TwoPhaseCommit

/-- How many deliveries some records still owe. -/
def LogRecord.owed : List LogRecord → Nat
  | [] => 0
  | r :: rs => r.pending.length + owed rs

@[simp] lemma LogRecord.owed_nil : owed [] = 0 := rfl

@[simp] lemma LogRecord.owed_cons (r : LogRecord) (rs : List LogRecord) :
    owed (r :: rs) = r.pending.length + owed rs := rfl

namespace Recovery

open LogRecord (owed)

variable {g : Registry} {r : LogRecord} {rs kept folded : List LogRecord}
  {ids rest : List ResourceId} {a : AdapterKey} {txs : List TxId} {st st' : RecoveryStats}
  {es : List Exchange} {log : LogRef} {result : Except StorageError RecoveryStats}

/-! ### The records of the log -/

lemma Redrives.stats (h : Redrives g r ids st es rest st') :
    st' = { st with redriven := st'.redriven, unknownResources := st'.unknownResources } := by
  induction h with
  | nil => rfl
  | unknown _ _ ih => exact ih
  | confirmed _ _ _ ih => exact ih
  | failed _ _ _ ih => exact ih

/-- Every participant is counted as told, or remains. -/
lemma Redrives.redriven (h : Redrives g r ids st es rest st') :
    st'.redriven + rest.length = st.redriven + ids.length := by
  induction h with
  | nil => rfl
  | unknown _ _ ih | confirmed _ _ _ ih | failed _ _ _ ih =>
    simp only [List.length_cons] at ih ⊢
    omega

lemma Redrives.length_le (h : Redrives g r ids st es rest st') : rest.length ≤ ids.length := by
  induction h with
  | nil => exact Nat.le_refl _
  | unknown _ _ ih => exact Nat.succ_le_succ ih
  | confirmed _ _ _ ih => exact Nat.le_succ_of_le ih
  | failed _ _ _ ih => exact Nat.succ_le_succ ih

lemma RedrivesAll.stats (h : RedrivesAll g rs st es kept st') :
    st' = { st with
      redriven := st'.redriven
      resolved := st'.resolved
      inDoubt := st'.inDoubt
      unknownResources := st'.unknownResources } := by
  induction h with
  | nil => rfl
  | resolved h _ ih =>
    rw [h.stats] at ih
    exact ih
  | kept _ _ h _ ih =>
    rw [h.stats] at ih
    exact ih

/-- Every record is counted as resolved or is kept, and what is kept is counted. -/
lemma RedrivesAll.records (h : RedrivesAll g rs st es kept st') :
    st'.resolved + kept.length = st.resolved + rs.length ∧
      st'.inDoubt = st.inDoubt + kept.length := by
  induction h with
  | nil => exact ⟨rfl, rfl⟩
  | resolved h _ ih =>
    rw [h.stats] at ih
    simp only [List.length_cons] at ih ⊢
    omega
  | kept _ _ h _ ih =>
    rw [h.stats] at ih
    simp only [List.length_cons] at ih ⊢
    omega

/-- Every delivery that is owed is counted as made, or is owed still. -/
lemma RedrivesAll.redriven (h : RedrivesAll g rs st es kept st') :
    st'.redriven + owed kept = st.redriven + owed rs := by
  induction h with
  | nil => rfl
  | resolved h _ ih =>
    have hr := h.redriven
    simp only [LogRecord.owed_cons, List.length_nil] at ih hr ⊢
    omega
  | kept _ _ h _ ih =>
    have hr := h.redriven
    simp only [LogRecord.owed_cons, pending_remaining] at ih ⊢
    omega

lemma RedrivesAll.owed_le (h : RedrivesAll g rs st es kept st') : owed kept ≤ owed rs := by
  induction h with
  | nil => exact Nat.le_refl _
  | resolved _ _ ih => exact Nat.le_add_left_of_le ih
  | kept _ _ h _ ih =>
    rw [LogRecord.owed_cons, LogRecord.owed_cons, pending_remaining]
    exact Nat.add_le_add h.length_le ih

lemma RedrivesAll.length_le (h : RedrivesAll g rs st es kept st') : kept.length ≤ rs.length := by
  simpa using h.tx_kept.length_le

/-! ### What adapters report -/

lemma Settles.stats (h : Settles folded a txs st es st') :
    st' = { st with
      redriven := st'.redriven
      reportedInDoubt := st'.reportedInDoubt
      presumedAborted := st'.presumedAborted
      reportedUnresolved := st'.reportedUnresolved } := by
  induction h with
  | nil => rfl
  | handled _ _ ih => exact ih
  | committed _ _ _ _ ih => exact ih
  | rolledBack _ _ _ _ ih => exact ih
  | unresolved _ _ _ ih => exact ih

/-- Every transaction that is reported is counted once more, by what became of it. -/
lemma Settles.counts (h : Settles folded a txs st es st') :
    st'.redriven + st'.presumedAborted + st'.reportedUnresolved + st.reportedInDoubt =
      st.redriven + st.presumedAborted + st.reportedUnresolved + st'.reportedInDoubt := by
  induction h with
  | nil => rfl
  | handled _ _ ih => exact ih
  | committed _ _ _ _ ih | rolledBack _ _ _ _ ih | unresolved _ _ _ ih =>
    dsimp only at ih
    omega

lemma SettlesAll.stats (h : SettlesAll folded g st es st') :
    st' = { st with
      redriven := st'.redriven
      reportedInDoubt := st'.reportedInDoubt
      presumedAborted := st'.presumedAborted
      reportedUnresolved := st'.reportedUnresolved } := by
  induction h with
  | nil => rfl
  | silent _ _ ih => exact ih
  | heard _ h _ ih =>
    rw [h.stats] at ih
    exact ih

lemma SettlesAll.counts (h : SettlesAll folded g st es st') :
    st'.redriven + st'.presumedAborted + st'.reportedUnresolved + st.reportedInDoubt =
      st.redriven + st.presumedAborted + st.reportedUnresolved + st'.reportedInDoubt := by
  induction h with
  | nil => rfl
  | silent _ _ ih => exact ih
  | heard _ h _ ih =>
    have hr := h.counts
    omega

/-! ### A whole pass -/

/-- At most one record of each transaction is attended to. -/
lemma length_unresolved_le (rs : List LogRecord) :
    (unresolved (LogRecord.fold rs)).length ≤ rs.length := by
  have hsub : (LogRecord.fold rs).map (·.tx) ⊆ rs.map (·.tx) := by
    rw [LogRecord.map_tx_fold]
    exact fun tx htx => List.mem_eraseDups.mp htx
  calc (unresolved (LogRecord.fold rs)).length
      ≤ (LogRecord.fold rs).length := List.length_filter_le ..
    _ ≤ rs.length := by simpa using (List.Nodup.subperm (LogRecord.nodup_fold rs) hsub).length_le

/-- The counters agree with the records that a log had and with those that are left. -/
structure Balances (rs left : List LogRecord) (st : RecoveryStats) : Prop where
  scanned : st.recordsScanned = rs.length
  purged : st.recordsScanned = st.purged + left.length
  transactions : st.transactions = (rs.map (·.tx)).eraseDups.length
  /-- Each transaction whose latest record is not resolved is counted in one way. -/
  attended : st.resolved + st.inDoubt = (unresolved (LogRecord.current rs)).length
  inDoubt : st.inDoubt = left.length
  /-- Nothing is owed that was not owed before. -/
  reduced : owed left ≤ owed (unresolved (LogRecord.current rs))
  /-- What is not owed any more has been delivered, and what was reported besides has come to an
  end in one of three ways. -/
  delivered : st.redriven + st.presumedAborted + st.reportedUnresolved =
    st.reportedInDoubt + (owed (unresolved (LogRecord.current rs)) - owed left)

lemma balances (h : RedrivesAll g (unresolved (LogRecord.fold rs)) (counted rs) es kept st)
    {es' : List Exchange}
    (h' : SettlesAll folded g { st with purged := rs.length - kept.length } es' st') :
    Balances rs kept st' := by
  have hle := Nat.le_trans h.length_le (length_unresolved_le rs)
  have howed := h.owed_le
  obtain ⟨hresolved, hdoubt⟩ := h.records
  have hredriven := h.redriven
  have hcounts := h'.counts
  have hstats := h'.stats
  rw [h.stats] at hstats hcounts
  rw [LogRecord.fold_eq_current] at howed hresolved hredriven
  have htransactions : (LogRecord.fold rs).length = (rs.map (·.tx)).eraseDups.length := by
    rw [← LogRecord.map_tx_fold, List.length_map]
  simp only [counted] at hstats hresolved hdoubt hredriven hcounts
  rw [hstats]
  refine ⟨rfl, ?_, htransactions, ?_, ?_, howed, ?_⟩
  all_goals
    dsimp only
    omega

lemma Recovers.balances (h : Recovers log g es (.ok st))
    (hread : ∀ e ∈ es, ∀ qs ∈ e.read?, qs = rs) : Balances rs (stored rs es) st := by
  cases h with
  | @unchanged qs st₁ st es₁ es₂ h₁ h₂ =>
    obtain rfl := hread _ (List.mem_cons_self ..) _ rfl
    rw [stored_unchanged (fun _ => h₁.apart) fun _ => h₂.apart]
    exact Recovery.balances h₁ h₂
  | @replaced qs kept st₁ st es₁ es₂ hk h₁ h₂ =>
    obtain rfl := hread _ (List.mem_cons_self ..) _ rfl
    rw [stored_replaced (fun _ => h₁.apart) fun _ => h₂.apart]
    exact Recovery.balances h₁ h₂

/-- What is written back is never longer than what was read. -/
lemma Recovers.length_replace_le (h : Recovers log g es result)
    (hread : ∀ e ∈ es, ∀ qs ∈ e.read?, qs = rs) {e : Exchange} (he : e ∈ es) {l : LogRef}
    (hq : e.question = .replace l kept) : kept.length ≤ rs.length := by
  have hnot : e.question.isAboutLog ≠ false := by simp [hq, Question.isAboutLog]
  cases h with
  | unreadable e' =>
    obtain rfl := List.mem_singleton.mp he
    cases hq
  | @unchanged qs st st' es₁ es₂ h₁ h₂ =>
    rw [List.mem_cons, List.mem_append] at he
    rcases he with rfl | he | he
    · cases hq
    · exact absurd (h₁.apart he) hnot
    · exact absurd (h₂.apart he) hnot
  | @refused qs kept' st es₁ e' hk h₁ =>
    obtain rfl := hread _ (List.mem_cons_self ..) _ rfl
    rw [List.mem_cons, List.mem_append, List.mem_singleton] at he
    rcases he with rfl | he | rfl
    · cases hq
    · exact absurd (h₁.apart he) hnot
    · cases hq
      exact Nat.le_trans h₁.length_le (length_unresolved_le qs)
  | @replaced qs kept' st st' es₁ es₂ hk h₁ h₂ =>
    obtain rfl := hread _ (List.mem_cons_self ..) _ rfl
    rw [List.mem_cons, List.mem_append, List.mem_cons] at he
    rcases he with rfl | he | rfl | he
    · cases hq
    · exact absurd (h₁.apart he) hnot
    · cases hq
      exact Nat.le_trans h₁.length_le (length_unresolved_le qs)
    · exact absurd (h₂.apart he) hnot

/-- A pass that comes to its end has counted what it did; and what any pass writes back is no longer
than what it read, so that what was dropped can be counted. -/
theorem recover_balances (h : (recover log g).Says es result)
    (hread : ∀ e ∈ es, ∀ qs ∈ e.read?, qs = rs) :
    (∀ st, result = .ok st → Balances rs (stored rs es) st) ∧
    ∀ e ∈ es, ∀ l kept, e.question = .replace l kept → kept.length ≤ rs.length := by
  have hpass := says_recover h
  refine ⟨?_, fun e he l kept hq => hpass.length_replace_le hread he hq⟩
  rintro st rfl
  exact hpass.balances hread

/-! ### A scattered log -/

/-- Of the five deliveries that two records owed two were made. Two transactions were reported
besides, and one of them could be settled. -/
def scatteredStats : RecoveryStats :=
  { recordsScanned := 4, transactions := 3, redriven := 3, resolved := 0, inDoubt := 2,
    unknownResources := 1, purged := 2, reportedInDoubt := 2, presumedAborted := 0,
    reportedUnresolved := 1 }

lemma scatteredPass_ok : (recover 0 adapters).Says scatteredPass.1 (.ok scatteredStats) := by
  have hok : scatteredPass.2 = .ok scatteredStats := by decide +kernel
  exact hok ▸ scatteredPass_says

theorem recover_balances_scattered :
    Balances scattered (stored scattered scatteredPass.1) scatteredStats :=
  (recover_balances scatteredPass_ok (by decide +kernel)).1 _ rfl

end Recovery

end TwoPhaseCommit
