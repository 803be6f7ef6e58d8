import TwoPhaseCommit.Coordinator.Recovery
import TwoPhaseCommit.Proofs.Dialogue

/-!
# The course of a pass of recovery

What a pass says from beginning to end, and what it answers, whatever it is told. There is one
relation for each procedure; the lemmas `says_*` show that there are no other ways.
-/

namespace TwoPhaseCommit

namespace Recovery

variable {g : Registry} {r : LogRecord} {rs folded : List LogRecord} {ids : List ResourceId}
  {a : AdapterKey} {tx : TxId} {txs : List TxId} {st st' : RecoveryStats} {es : List Exchange}

/-! ### Exchanges -/

/-- The call that tells an adapter an outcome. -/
def telling (a : AdapterKey) (tx : TxId) : Decision → Question
  | .committed => .commit a tx false
  | .rolledBack => .rollback a tx

/-- An adapter is told an outcome. -/
def delivery (a : AdapterKey) (tx : TxId) : Decision → Except ResourceError Unit → Exchange
  | .committed, x => ⟨.commit a tx false, x⟩
  | .rolledBack, x => ⟨.rollback a tx, x⟩

/-- What a resource answers that has reached an outcome on its own. -/
def heuristic : Decision → ResourceError
  | .committed => .heuristicCommit
  | .rolledBack => .heuristicRollback

/-- Whether an answer confirms an outcome. -/
def Confirms (d : Decision) (x : Except ResourceError Unit) : Prop :=
  x = .ok () ∨ x = .error (heuristic d)

instance (d : Decision) (x : Except ResourceError Unit) : Decidable (Confirms d x) :=
  inferInstanceAs (Decidable (_ ∨ _))

/-! ### Relations -/

/-- The outcome of a record is told to its participants, and those that did not confirm it
remain. -/
inductive Redrives (g : Registry) (r : LogRecord) : List ResourceId → RecoveryStats →
    List Exchange → List ResourceId → RecoveryStats → Prop
  | nil {st : RecoveryStats} : Redrives g r [] st [] [] st
  | unknown {id : ResourceId} {ids rest : List ResourceId} {st st' : RecoveryStats}
      {es : List Exchange} (hg : g.get? id = none)
      (h : Redrives g r ids { st with unknownResources := st.unknownResources + 1 } es rest st') :
    Redrives g r (id :: ids) st es (id :: rest) st'
  | confirmed {id : ResourceId} {ids rest : List ResourceId} {st st' : RecoveryStats}
      {es : List Exchange} {a : AdapterKey} {x : Except ResourceError Unit}
      (hg : g.get? id = some a) (hx : Confirms r.decision x)
      (h : Redrives g r ids { st with redriven := st.redriven + 1 } es rest st') :
    Redrives g r (id :: ids) st (delivery a r.tx r.decision x :: es) rest st'
  | failed {id : ResourceId} {ids rest : List ResourceId} {st st' : RecoveryStats}
      {es : List Exchange} {a : AdapterKey} {e : ResourceError} (hg : g.get? id = some a)
      (he : e ≠ heuristic r.decision) (h : Redrives g r ids st es rest st') :
    Redrives g r (id :: ids) st (delivery a r.tx r.decision (.error e) :: es) (id :: rest) st'

/-- The record that is kept of one whose participants did not all confirm. -/
def remaining (r : LogRecord) (rest : List ResourceId) (now : UInt64) : LogRecord :=
  if rest = r.pending then r else r.withPending rest now

/-- The outcomes of records are told, and those records remain that are not resolved. -/
inductive RedrivesAll (g : Registry) : List LogRecord → RecoveryStats → List Exchange →
    List LogRecord → RecoveryStats → Prop
  | nil {st : RecoveryStats} : RedrivesAll g [] st [] [] st
  | resolved {r : LogRecord} {rs kept : List LogRecord} {st st₁ st' : RecoveryStats}
      {es es' : List Exchange} (h : Redrives g r r.pending st es [] st₁)
      (h' : RedrivesAll g rs { st₁ with resolved := st₁.resolved + 1 } es' kept st') :
    RedrivesAll g (r :: rs) st (es ++ es') kept st'
  | kept {r : LogRecord} {rs kept : List LogRecord} {st st₁ st' : RecoveryStats}
      {es es' : List Exchange} {rest : List ResourceId} (now : UInt64) (hr : rest ≠ [])
      (h : Redrives g r r.pending st es rest st₁)
      (h' : RedrivesAll g rs { st₁ with inDoubt := st₁.inDoubt + 1 } es' kept st') :
    RedrivesAll g (r :: rs) st (es ++ es') (remaining r rest now :: kept) st'

/-- Transactions that an adapter reports are settled, other than those that the log had pending. -/
inductive Settles (folded : List LogRecord) (a : AdapterKey) : List TxId → RecoveryStats →
    List Exchange → RecoveryStats → Prop
  | nil {st : RecoveryStats} : Settles folded a [] st [] st
  | handled {tx : TxId} {txs : List TxId} {st st' : RecoveryStats} {es : List Exchange}
      (ht : isHandled folded tx a.id = true) (h : Settles folded a txs st es st') :
    Settles folded a (tx :: txs) st es st'
  | committed {tx : TxId} {txs : List TxId} {st st' : RecoveryStats} {es : List Exchange}
      {x : Except ResourceError Unit} (ht : isHandled folded tx a.id = false)
      (ho : outcome folded tx = .committed) (hx : Confirms .committed x)
      (h : Settles folded a txs
        { st with reportedInDoubt := st.reportedInDoubt + 1, redriven := st.redriven + 1 } es st') :
    Settles folded a (tx :: txs) st (delivery a tx .committed x :: es) st'
  | rolledBack {tx : TxId} {txs : List TxId} {st st' : RecoveryStats} {es : List Exchange}
      {x : Except ResourceError Unit} (ht : isHandled folded tx a.id = false)
      (ho : outcome folded tx = .rolledBack) (hx : Confirms .rolledBack x)
      (h : Settles folded a txs
        { st with
          reportedInDoubt := st.reportedInDoubt + 1
          presumedAborted := st.presumedAborted + 1 } es st') :
    Settles folded a (tx :: txs) st (delivery a tx .rolledBack x :: es) st'
  | unresolved {tx : TxId} {txs : List TxId} {st st' : RecoveryStats} {es : List Exchange}
      {e : ResourceError} (ht : isHandled folded tx a.id = false)
      (he : e ≠ heuristic (outcome folded tx))
      (h : Settles folded a txs
        { st with
          reportedInDoubt := st.reportedInDoubt + 1
          reportedUnresolved := st.reportedUnresolved + 1 } es st') :
    Settles folded a (tx :: txs) st (delivery a tx (outcome folded tx) (.error e) :: es) st'

/-- Every adapter is asked what waits for its outcome, and that is settled. -/
inductive SettlesAll (folded : List LogRecord) : Registry → RecoveryStats → List Exchange →
    RecoveryStats → Prop
  | nil {st : RecoveryStats} : SettlesAll folded [] st [] st
  | silent {a : AdapterKey} {g : Registry} {st st' : RecoveryStats} {es : List Exchange}
      (e : ResourceError) (h : SettlesAll folded g st es st') :
    SettlesAll folded (a :: g) st (⟨.inDoubt a, .error e⟩ :: es) st'
  | heard {a : AdapterKey} {g : Registry} {st st₁ st' : RecoveryStats} {es es' : List Exchange}
      (reported : List TxId) (h : Settles folded a reported st es st₁)
      (h' : SettlesAll folded g st₁ es' st') :
    SettlesAll folded (a :: g) st (⟨.inDoubt a, .ok reported⟩ :: (es ++ es')) st'

/-- What a pass has counted before it tells anybody anything. -/
def counted (rs : List LogRecord) : RecoveryStats :=
  { recordsScanned := rs.length, transactions := (LogRecord.fold rs).length }

/-- One pass over a log. -/
inductive Recovers (log : LogRef) (g : Registry) :
    List Exchange → Except StorageError RecoveryStats → Prop
  | unreadable (e : StorageError) : Recovers log g [⟨.readAll log, .error e⟩] (.error e)
  | unchanged {rs : List LogRecord} {st st' : RecoveryStats} {es es' : List Exchange}
      (h : RedrivesAll g (unresolved (LogRecord.fold rs)) (counted rs) es rs st)
      (h' : SettlesAll (LogRecord.fold rs) g { st with purged := rs.length - rs.length } es' st') :
    Recovers log g (⟨.readAll log, .ok rs⟩ :: (es ++ es')) (.ok st')
  | refused {rs kept : List LogRecord} {st : RecoveryStats} {es : List Exchange}
      (e : StorageError) (hk : kept ≠ rs)
      (h : RedrivesAll g (unresolved (LogRecord.fold rs)) (counted rs) es kept st) :
    Recovers log g (⟨.readAll log, .ok rs⟩ :: (es ++ [⟨.replace log kept, .error e⟩])) (.error e)
  | replaced {rs kept : List LogRecord} {st st' : RecoveryStats} {es es' : List Exchange}
      (hk : kept ≠ rs)
      (h : RedrivesAll g (unresolved (LogRecord.fold rs)) (counted rs) es kept st)
      (h' : SettlesAll (LogRecord.fold rs) g { st with purged := rs.length - kept.length } es' st') :
    Recovers log g (⟨.readAll log, .ok rs⟩ :: (es ++ ⟨.replace log kept, .ok ()⟩ :: es')) (.ok st')

/-! ### There are no other ways -/

lemma says_deliver {d : Decision} {y : Except ResourceError Unit} (h : (deliver a tx d).Says es y) :
    ∃ x, es = [delivery a tx d x] ∧
      (y = .ok () ∧ Confirms d x ∨ ∃ e, y = .error e ∧ x = .error e ∧ e ≠ heuristic d) := by
  -- both outcomes are delivered alike
  cases d
  all_goals
    obtain ⟨x, es, hx, rfl⟩ := h.after (by simp)
    refine ⟨x, ?_⟩
    split at hx
    next =>
      obtain ⟨rfl, rfl⟩ := Proc.says_pure hx
      exact ⟨rfl, .inl ⟨rfl, .inr rfl⟩⟩
    next hne =>
      obtain ⟨rfl, rfl⟩ := Proc.says_pure hx
      refine ⟨rfl, ?_⟩
      cases y with
      | ok u => exact .inl ⟨rfl, .inl rfl⟩
      | error e => exact .inr ⟨e, rfl, rfl, fun he => hne (congrArg Except.error he)⟩

lemma says_redrive {x : List ResourceId × RecoveryStats} (h : (redrive g r ids st).Says es x) :
    Redrives g r ids st es x.1 x.2 := by
  induction ids generalizing st es x with
  | nil =>
    obtain ⟨rfl, rfl⟩ := Proc.says_pure h
    exact .nil
  | cons id ids ih =>
    unfold redrive at h
    split at h
    next hg =>
      obtain ⟨es₁, y, es₂, h₁, h₂, rfl⟩ := h.bind
      obtain ⟨rfl, rfl⟩ := Proc.says_pure h₂
      rw [List.append_nil]
      exact .unknown hg (ih h₁)
    next a hg =>
      obtain ⟨es₁, y, es₂, h₁, h₂, rfl⟩ := h.bind
      obtain ⟨x', rfl, ⟨rfl, hx⟩ | ⟨e, rfl, rfl, he⟩⟩ := says_deliver h₁
      · exact .confirmed hg hx (ih h₂)
      · obtain ⟨es₂, z, es₃, h₃, h₄, rfl⟩ := h₂.bind
        obtain ⟨rfl, rfl⟩ := Proc.says_pure h₄
        rw [List.append_nil]
        exact .failed hg he (ih h₃)

lemma says_redriveAll {x : List LogRecord × RecoveryStats} (h : (redriveAll g rs st).Says es x) :
    RedrivesAll g rs st es x.1 x.2 := by
  induction rs generalizing st es x with
  | nil =>
    obtain ⟨rfl, rfl⟩ := Proc.says_pure h
    exact .nil
  | cons r rs ih =>
    obtain ⟨es₁, y, es₂, h₁, h₂, rfl⟩ := h.bind
    have hredrives := says_redrive h₁
    dsimp only at h₂
    split at h₂
    next hy =>
      rw [List.isEmpty_iff.mp hy] at hredrives
      exact .resolved hredrives (ih h₂)
    next hy =>
      obtain ⟨now, h₂⟩ := h₂.beyond (Proc.quiet_view _)
      obtain ⟨es₂, z, es₃, h₃, h₄, rfl⟩ := h₂.bind
      obtain ⟨rfl, rfl⟩ := Proc.says_pure h₄
      rw [List.append_nil]
      exact .kept now (fun hr => hy (List.isEmpty_iff.mpr hr)) hredrives (ih h₃)

lemma says_settle (h : (settle folded a txs st).Says es st') : Settles folded a txs st es st' := by
  induction txs generalizing st es st' with
  | nil =>
    obtain ⟨rfl, rfl⟩ := Proc.says_pure h
    exact .nil
  | cons tx txs ih =>
    unfold settle at h
    split at h
    next ht => exact .handled ht (ih h)
    next ht =>
      have hf : isHandled folded tx a.id = false := eq_false_of_ne_true ht
      obtain ⟨es₁, y, es₂, h₁, h₂, rfl⟩ := h.bind
      obtain ⟨x', rfl, ⟨rfl, hx⟩ | ⟨e, rfl, rfl, he⟩⟩ := says_deliver h₁
      · cases ho : outcome folded tx with
        | committed =>
          rw [ho] at h₂ hx
          exact .committed hf ho hx (ih h₂)
        | rolledBack =>
          rw [ho] at h₂ hx
          exact .rolledBack hf ho hx (ih h₂)
      · refine .unresolved hf he (ih ?_)
        cases ho : outcome folded tx with
        | committed =>
          rw [ho] at h₂
          exact h₂
        | rolledBack =>
          rw [ho] at h₂
          exact h₂

lemma says_settleAll (h : (settleAll folded g st).Says es st') : SettlesAll folded g st es st' := by
  induction g generalizing st es st' with
  | nil =>
    obtain ⟨rfl, rfl⟩ := Proc.says_pure h
    exact .nil
  | cons a g ih =>
    obtain ⟨x, es, hx, rfl⟩ := h.after (by simp)
    cases x with
    | error e => exact .silent e (ih hx)
    | ok reported =>
      obtain ⟨es₁, st₁, es₂, h₁, h₂, rfl⟩ := hx.bind
      exact .heard reported (says_settle h₁) (ih h₂)

lemma says_recover {log : LogRef} {x : Except StorageError RecoveryStats}
    (h : (recover log g).Says es x) : Recovers log g es x := by
  obtain ⟨y, es, hy, rfl⟩ := h.after (by simp)
  cases y with
  | error e =>
    obtain ⟨rfl, rfl⟩ := Proc.says_pure hy
    exact .unreadable e
  | ok rs =>
    obtain ⟨es₁, z, es₂, h₁, h₂, rfl⟩ := hy.bind
    have hredrives := says_redriveAll h₁
    dsimp only at h₂
    split at h₂
    next hk =>
      obtain ⟨es₂, st', es₃, h₃, h₄, rfl⟩ := h₂.bind
      obtain ⟨rfl, rfl⟩ := Proc.says_pure h₄
      rw [List.append_nil]
      rw [hk] at hredrives h₃
      exact .unchanged hredrives (says_settleAll h₃)
    next hk =>
      obtain ⟨y, es₂, hrest, rfl⟩ := h₂.after (by simp)
      cases y with
      | error e =>
        obtain ⟨rfl, rfl⟩ := Proc.says_pure hrest
        exact .refused e hk hredrives
      | ok u =>
        obtain ⟨es₂, st', es₃, h₃, h₄, rfl⟩ := hrest.bind
        obtain ⟨rfl, rfl⟩ := Proc.says_pure h₄
        rw [List.append_nil]
        exact .replaced hk hredrives (says_settleAll h₃)

end Recovery

end TwoPhaseCommit
