import TwoPhaseCommit.Proofs.Reversal

/-!
# Consistent histories

A resource holds a transaction prepared from its vote to commit until it has confirmed an outcome
with success; whatever else it answers changes nothing. In a consistent history either nobody was
told to commit, or the log has the decision and nobody was told to roll back, or the log has lost
the decision, and then only those hold the transaction that claim to have committed it on their own.
Passes of recovery keep a history consistent, however far each of them comes.
-/

namespace TwoPhaseCommit

open Recovery (Attends Confirms delivery)

variable {id : TxId} {rid : ResourceId} {r : LogRecord} {r? : Option LogRecord} {e : Exchange}
  {es es₁ es₂ H : List Exchange}

/-! ### Resources -/

/-- Whether a resource votes to commit. -/
def Exchange.votes (id : TxId) (rid : ResourceId) : Exchange → Bool
  | ⟨.prepare k i, .ok .commit⟩ => i == id && k.id == rid
  | _ => false

/-- Whether a resource applies an outcome: it is told so and succeeds. -/
def Exchange.applies (id : TxId) (rid : ResourceId) : Decision → Exchange → Bool
  | .committed, ⟨.commit k i _, .ok ()⟩ | .rolledBack, ⟨.rollback k i, .ok ()⟩ =>
    i == id && k.id == rid
  | _, _ => false

/-- Whether a resource claims to have committed on its own. -/
def Exchange.acknowledges (id : TxId) (rid : ResourceId) : Exchange → Bool
  | ⟨.commit k i _, .error .heuristicCommit⟩ => i == id && k.id == rid
  | _ => false

/-- Whether a resource applies the one outcome or the other. -/
def Exchange.settles (id : TxId) (rid : ResourceId) (e : Exchange) : Bool :=
  e.applies id rid .committed || e.applies id rid .rolledBack

/-- Whether a resource holds a transaction prepared after some exchanges. -/
def holds (id : TxId) (rid : ResourceId) (es : List Exchange) : Bool :=
  es.foldl (fun held e => (held || e.votes id rid) && !e.settles id rid) false

/-- A resource has applied an outcome. -/
def Applied (id : TxId) (rid : ResourceId) (d : Decision) (es : List Exchange) : Prop :=
  ∃ e ∈ es, e.applies id rid d = true

/-- What an adapter reports. -/
def Exchange.reported? : Exchange → Option (AdapterKey × List TxId)
  | ⟨.inDoubt k, .ok reported⟩ => some (k, reported)
  | _ => none

/-- Resources report a transaction exactly if they hold it. -/
def Truthful (id : TxId) (es : List Exchange) : Prop :=
  Throughout (fun pre e => ∀ p ∈ e.reported?, (id ∈ p.2 ↔ holds id p.1.id pre = true)) es

instance (id : TxId) (es : List Exchange) : Decidable (Truthful id es) := Throughout.decidable _ es

instance (id : TxId) (rid : ResourceId) (d : Decision) (es : List Exchange) :
    Decidable (Applied id rid d es) :=
  inferInstanceAs (Decidable (∃ e ∈ es, _))

lemma Exchange.votes_iff :
    e.votes id rid = true ↔ ∃ k : AdapterKey, k.id = rid ∧ e = ⟨.prepare k id, .ok .commit⟩ := by
  constructor
  · unfold votes
    split
    next k i =>
      intro h
      rw [Bool.and_eq_true, beq_iff_eq, beq_iff_eq] at h
      obtain ⟨rfl, rfl⟩ := h
      exact ⟨k, rfl, rfl⟩
    next => simp
  · rintro ⟨k, rfl, rfl⟩
    simp [votes]

lemma Exchange.applies_committed_iff :
    e.applies id rid .committed = true ↔
      ∃ (k : AdapterKey) (onePhase : Bool), k.id = rid ∧ e = ⟨.commit k id onePhase, .ok ()⟩ := by
  constructor
  · unfold applies
    split
    next k i onePhase _ =>
      intro h
      rw [Bool.and_eq_true, beq_iff_eq, beq_iff_eq] at h
      obtain ⟨rfl, rfl⟩ := h
      exact ⟨k, onePhase, rfl, rfl⟩
    next h => cases h
    next => simp
  · rintro ⟨k, onePhase, rfl, rfl⟩
    simp [applies]

lemma Exchange.applies_rolledBack_iff :
    e.applies id rid .rolledBack = true ↔
      ∃ k : AdapterKey, k.id = rid ∧ e = ⟨.rollback k id, .ok ()⟩ := by
  constructor
  · unfold applies
    split
    next h => cases h
    next k i _ =>
      intro h
      rw [Bool.and_eq_true, beq_iff_eq, beq_iff_eq] at h
      obtain ⟨rfl, rfl⟩ := h
      exact ⟨k, rfl, rfl⟩
    next => simp
  · rintro ⟨k, rfl, rfl⟩
    simp [applies]

lemma holds_concat (es : List Exchange) (e : Exchange) :
    holds id rid (es ++ [e]) = ((holds id rid es || e.votes id rid) && !e.settles id rid) := by
  simp [holds]

/-- Nobody votes here. -/
def Voteless (es : List Exchange) : Prop := ∀ e ∈ es, ∀ k i, e.question ≠ .prepare k i

lemma Voteless.votes (h : Voteless es) (he : e ∈ es) : e.votes id rid = false := by
  rw [← Bool.not_eq_true, Exchange.votes_iff]
  rintro ⟨k, -, rfl⟩
  exact h _ he k id rfl

/-- While nobody votes a resource only holds what it held before, and has not confirmed since. -/
lemma Voteless.holds (h : Voteless es₂) (hh : holds id rid (es₁ ++ es₂) = true) :
    holds id rid es₁ = true ∧ ∀ e ∈ es₂, e.settles id rid = false := by
  induction es₂ using List.reverseRecOn with
  | nil =>
    rw [List.append_nil] at hh
    exact ⟨hh, by simp⟩
  | append_singleton es e ih =>
    have hes : Voteless es := fun e' he' => h e' (List.mem_append_left _ he')
    have he : e.votes id rid = false := h.votes (List.mem_append_right _ (List.mem_singleton_self e))
    rw [← List.append_assoc, holds_concat, he, Bool.or_false, Bool.and_eq_true,
      Bool.not_eq_true'] at hh
    obtain ⟨hbefore, hsettled⟩ := ih hes hh.1
    refine ⟨hbefore, fun e' he' => ?_⟩
    rcases List.mem_append.mp he' with he' | he'
    · exact hsettled e' he'
    · obtain rfl := List.mem_singleton.mp he'
      exact hh.2

/-- Who holds a transaction has voted to commit it. -/
lemma voted_of_holds (h : holds id rid es = true) : ∃ e ∈ es, e.votes id rid = true := by
  induction es using List.reverseRecOn with
  | nil => cases h
  | append_singleton es e ih =>
    rw [holds_concat, Bool.and_eq_true, Bool.or_eq_true] at h
    rcases h.1 with h | h
    · obtain ⟨e', he', hv⟩ := ih h
      exact ⟨e', List.mem_append_left _ he', hv⟩
    · exact ⟨e, List.mem_append_right _ (List.mem_singleton_self e), h⟩

/-- Who has voted to commit holds the transaction until it confirms an outcome. -/
lemma settled_of_not_holds (hv : ∃ e ∈ es, e.votes id rid = true) (h : holds id rid es = false) :
    ∃ e ∈ es, e.settles id rid = true := by
  induction es using List.reverseRecOn with
  | nil =>
    obtain ⟨e, he, -⟩ := hv
    cases he
  | append_singleton es e ih =>
    by_cases hs : e.settles id rid = true
    · exact ⟨e, List.mem_append_right _ (List.mem_singleton_self e), hs⟩
    · rw [Bool.not_eq_true] at hs
      rw [holds_concat, hs, Bool.not_false, Bool.and_true, Bool.or_eq_false_iff] at h
      obtain ⟨e', he', hv⟩ := hv
      rcases List.mem_append.mp he' with he' | he'
      · obtain ⟨e'', he'', hs⟩ := ih ⟨e', he', hv⟩ h.1
        exact ⟨e'', List.mem_append_left _ he'', hs⟩
      · obtain rfl := List.mem_singleton.mp he'
        rw [h.2] at hv
        cases hv

/-! ### Consistent histories -/

/-- A resource has claimed to have committed on its own. -/
def Acknowledged (id : TxId) (rid : ResourceId) (es : List Exchange) : Prop :=
  ∃ e ∈ es, e.acknowledges id rid = true

lemma Acknowledged.left (h : Acknowledged id rid es₁) : Acknowledged id rid (es₁ ++ es₂) := by
  obtain ⟨e, he, ha⟩ := h
  exact ⟨e, List.mem_append_left _ he, ha⟩

/-- What is known of the outcome of a transaction. -/
inductive Consistent (id : TxId) (es : List Exchange) : Prop
  /-- Nobody was told to commit, and no commit is on record. -/
  | undecided (hc : ∀ e ∈ es, ∀ k onePhase, e.question ≠ .commit k id onePhase)
      (hd : ∀ r ∈ durable id none es, r.decision = .rolledBack)
  /-- The commit is on record, nobody was told to roll back, and whoever holds the transaction is
  pending, or claims to have committed. -/
  | decided {r : LogRecord} (hd : durable id none es = some r) (hr : r.decision = .committed)
      (hn : ∀ e ∈ es, ∀ k, e.question ≠ .rollback k id)
      (hp : ∀ rid, holds id rid es = true → rid ∈ r.pending ∨ Acknowledged id rid es)
  /-- Nothing is on record any more, and whoever holds the transaction claims to have committed. -/
  | forgotten (hd : durable id none es = none)
      (hp : ∀ rid, holds id rid es = true → Acknowledged id rid es)
      (hr : Throughout (fun pre e => ∀ rid, e.applies id rid .rolledBack = true →
        durable id none pre = none ∧ Acknowledged id rid pre) es)

/-! ### Passes of recovery -/

namespace Recovery

lemma Attends.voteless (h : Attends id r? es) : Voteless es := fun e he => (h.apart e he).1

/-- Whoever holds a transaction at the end of what attends to it is still pending, or claims to have
committed. -/
lemma Attends.covers (h : Attends id (some r) es) (hr : r.decision = .committed)
    (hp : ∀ rid, holds id rid H = true → rid ∈ r.pending ∨ Acknowledged id rid H)
    (hh : holds id rid (H ++ es) = true) :
    (∃ q ∈ durable id (some r) es, rid ∈ q.pending) ∨ Acknowledged id rid (H ++ es) := by
  obtain ⟨hbefore, hsettled⟩ := h.voteless.holds hh
  rcases hp rid hbefore with hrid | hack
  · rcases h.keeps.2 r rfl rid hrid with hq | ⟨a, x, rfl, hx, he⟩
    · exact .inl hq
    · rw [hr] at hx he
      rcases hx with rfl | rfl
      · have hs := hsettled _ he
        simp [delivery, Exchange.settles, Exchange.applies] at hs
      · refine .inr ⟨_, List.mem_append_right _ he, ?_⟩
        simp [delivery, heuristic, Exchange.acknowledges]
  · exact .inr hack.left

/-- Without a record nobody is rolled back but who holds the transaction. -/
lemma Attends.rolledBack (h : Attends id none es) (ht : Truthful id (H ++ es)) :
    Throughout (fun pre e => ∀ k x, e = ⟨.rollback k id, x⟩ →
      holds id k.id H = true ∧ durable id none pre = none) es := by
  rintro pre e post hsplit k x rfl
  have hpre : Attends id none pre := h.of_prefix (hsplit ▸ List.prefix_append ..)
  constructor
  · rcases h.told pre _ post hsplit k .rolledBack x rfl with ⟨q, hq, -⟩ | ⟨-, -, reported, hr, hid⟩
    · cases hq
    · obtain ⟨before, after, rfl⟩ := List.append_of_mem hr
      rw [List.append_assoc, List.cons_append] at hsplit
      have hheld : holds id k.id (H ++ before) = true :=
        (ht.drop before _ _ hsplit (k, reported) rfl).mp hid
      exact ((h.of_prefix (hsplit ▸ List.prefix_append ..)).voteless.holds hheld).1
  · exact hpre.unrecorded

/-- While nothing is decided nobody is told to commit. -/
lemma Attends.undecided (h : Attends id r? es) (hd : ∀ r ∈ r?, r.decision = .rolledBack) :
    (∀ e ∈ es, ∀ k onePhase, e.question ≠ .commit k id onePhase) ∧
      ∀ q ∈ durable id r? es, q.decision = .rolledBack := by
  constructor
  · intro e he k onePhase hq
    cases onePhase with
    | true => exact (h.apart e he).2.1 k id hq
    | false =>
      obtain ⟨pre, post, hsplit⟩ := List.append_of_mem he
      obtain ⟨x, rfl⟩ := exists_delivery (d := .committed) hq
      rcases h.told pre _ post hsplit k _ x rfl with ⟨r, hr, hd'⟩ | ⟨-, hd', -⟩
      · rw [hd r hr] at hd'
        cases hd'
      · cases hd'
  · intro q hq
    obtain ⟨r, hr, hqr⟩ := h.keeps.1 q hq
    exact hqr.trans (hd r hr)

end Recovery

/-- What attends to a transaction by its record keeps the history consistent. -/
lemma Consistent.attend (h : Consistent id H) (ha : Attends id (durable id none H) es)
    (ht : Truthful id (H ++ es)) : Consistent id (H ++ es) := by
  cases h with
  | undecided hc hd =>
    -- without a commit on record a pass tells nobody to commit
    obtain ⟨hc', hd'⟩ := ha.undecided hd
    refine .undecided (fun e he => (List.mem_append.mp he).elim (hc e) (hc' e)) ?_
    rw [durable_append]
    exact hd'
  | @decided r hd hr hn hp =>
    -- nobody is told to roll back while the record stands
    rw [hd] at ha
    have hn' : ∀ e ∈ H ++ es, ∀ k, e.question ≠ .rollback k id := fun e he =>
      (List.mem_append.mp he).elim (hn e) (ha.not_rollback hr)
    have hd' : durable id none (H ++ es) = durable id (some r) es := by rw [durable_append, hd]
    cases hq : durable id (some r) es with
    | some q =>
      obtain ⟨r', hr', hqr⟩ := ha.keeps.1 q hq
      obtain rfl := Option.some.inj hr'
      apply Consistent.decided (hd'.trans hq) (hqr.trans hr) hn'
      intro rid hh
      rcases ha.covers hr hp hh with ⟨q', hq', hrid⟩ | hack
      · obtain rfl := Option.some.inj (hq.symm.trans hq')
        exact .inl hrid
      · exact .inr hack
    | none =>
      refine .forgotten (hd'.trans hq) (fun rid hh => ?_)
        (throughout_of_forall fun e he pre rid ha => ?_)
      · -- the record is dropped, so nobody is pending any more
        rcases ha.covers hr hp hh with ⟨q', hq', -⟩ | hack
        · rw [hq] at hq'
          cases hq'
        · exact hack
      · obtain ⟨k, -, rfl⟩ := Exchange.applies_rolledBack_iff.mp ha
        exact absurd rfl (hn' _ he k)
  | forgotten hd hp hr =>
    -- a pass takes no votes, so who holds it now held it before
    rw [hd] at ha
    refine .forgotten ?_ (fun rid hh => (hp rid (ha.voteless.holds hh).1).left) (hr.append ?_)
    · rw [durable_append, hd]
      exact ha.unrecorded
    · refine (ha.rolledBack ht).mono ?_
      intro pre e hpre rid ha
      obtain ⟨k, rfl, he⟩ := Exchange.applies_rolledBack_iff.mp ha
      obtain ⟨hheld, hnone⟩ := hpre k _ he
      refine ⟨?_, (hp k.id hheld).left⟩
      rw [durable_append, hd]
      exact hnone

/-- The pass may have been cut short. -/
def Pass.Begun (log : LogRef) (p : Pass) : Prop :=
  ∃ es result, (Recovery.recover log p.registry).Says (p.exchanges ++ es) result

lemma Pass.Whole.begun {log : LogRef} {p : Pass} (h : p.Whole log) : p.Begun log := by
  obtain ⟨result, h⟩ := h
  rw [← List.append_nil p.exchanges] at h
  exact ⟨[], result, h⟩

lemma Pass.Begun.attends {log : LogRef} {p : Pass} (h : p.Begun log)
    (hf : Faithful id r? p.exchanges) : Attends id r? p.exchanges := by
  obtain ⟨es, result, h⟩ := h
  exact (Recovery.says_recover h).attends hf

/-- Passes keep a history consistent. -/
lemma Consistent.history {log : LogRef} {ps : List Pass} (h : Consistent id H)
    (hps : ∀ p ∈ ps, p.Begun log) (hf : Faithful id none (H ++ history ps))
    (ht : Truthful id (H ++ history ps)) : Consistent id (H ++ history ps) := by
  induction ps generalizing H with
  | nil =>
    rw [history_nil, List.append_nil]
    exact h
  | cons p ps ih =>
    rw [List.forall_mem_cons] at hps
    rw [history_cons, ← List.append_assoc] at hf ht ⊢
    have hattends : Attends id (durable id none H) p.exchanges := hps.1.attends hf.left.right
    exact ih (h.attend hattends (ht.of_prefix (List.prefix_append ..))) hps.2 hf ht

/-! ### Mixed outcomes -/

/-- One resource has committed a transaction and another has rolled it back. -/
def Mixed (id : TxId) (es : List Exchange) : Prop :=
  ∃ rid rid', rid ≠ rid' ∧ Applied id rid .committed es ∧ Applied id rid' .rolledBack es

/-- A resource that claims to have committed on its own, and does not hold to it, is rolled back
when the log has lost the decision. -/
def Betrayed (id : TxId) (rid : ResourceId) (es : List Exchange) : Prop :=
  ∃ pre e post, es = pre ++ e :: post ∧ e.applies id rid .rolledBack = true ∧
    durable id none pre = none ∧ Acknowledged id rid pre

lemma Consistent.mixed_iff (h : Consistent id es) :
    Mixed id es ↔ ∃ rid rid', rid ≠ rid' ∧ Applied id rid .committed es ∧ Betrayed id rid' es := by
  constructor
  · rintro ⟨rid, rid', hne, hcommitted, e, he, ha⟩
    refine ⟨rid, rid', hne, hcommitted, ?_⟩
    cases h with
    | undecided hc _ =>
      obtain ⟨e', he', hc'⟩ := hcommitted
      obtain ⟨k, onePhase, -, rfl⟩ := Exchange.applies_committed_iff.mp hc'
      exact absurd rfl (hc _ he' k onePhase)
    | decided _ _ hn _ =>
      obtain ⟨k, -, rfl⟩ := Exchange.applies_rolledBack_iff.mp ha
      exact absurd rfl (hn _ he k)
    | forgotten _ _ hr =>
      obtain ⟨pre, post, hsplit⟩ := List.append_of_mem he
      exact ⟨pre, e, post, hsplit, ha, hr pre e post hsplit rid' ha⟩
  · rintro ⟨rid, rid', hne, hcommitted, pre, e, post, rfl, ha, -⟩
    exact ⟨rid, rid', hne, hcommitted, e, by simp, ha⟩

/-- Whether a call to an adapter or a log was answered with success. -/
def Exchange.isOk : Exchange → Bool
  | ⟨.prepare .., .ok _⟩ | ⟨.commit .., .ok _⟩ | ⟨.rollback .., .ok _⟩ | ⟨.inDoubt _, .ok _⟩
  | ⟨.append .., .ok _⟩ | ⟨.readAll _, .ok _⟩ | ⟨.replace .., .ok _⟩ => true
  | _ => false

/-- Every call in a pass succeeds. -/
def Pass.Smooth (p : Pass) : Prop := ∀ e ∈ p.exchanges, e.isOk = true

namespace Recovery

lemma settles_of_isOk {a : AdapterKey} {d : Decision} {x : Except ResourceError Unit}
    (h : (delivery a id d x).isOk = true) : (delivery a id d x).settles id a.id = true := by
  cases x with
  | ok u => cases d <;> simp [delivery, Exchange.settles, Exchange.applies]
  | error e => cases d <;> cases h

lemma Recovers.ok_of_isOk {log : LogRef} {g : Registry} {result : Except StorageError RecoveryStats}
    (h : Recovers log g es result) (hok : ∀ e ∈ es, e.isOk = true) : ∃ st, result = .ok st := by
  cases h with
  | unreadable e => cases hok _ (List.mem_singleton_self _)
  | unchanged _ _ => exact ⟨_, rfl⟩
  | @refused rs kept st es e _ _ => cases hok ⟨.replace log kept, .error e⟩ (by simp)
  | replaced _ _ _ => exact ⟨_, rfl⟩

end Recovery

/-- After a pass in which every call succeeds no registered resource holds a transaction. -/
lemma Pass.Whole.settled {log : LogRef} {p : Pass} {a : AdapterKey} (h : p.Whole log)
    (hok : p.Smooth) (hf : Faithful id r? p.exchanges) (ht : Truthful id (H ++ p.exchanges))
    (ha : p.registry.get? rid = some a) : holds id rid (H ++ p.exchanges) = false := by
  obtain ⟨result, h⟩ := h
  have hpass := Recovery.says_recover h
  obtain ⟨st, rfl⟩ := hpass.ok_of_isOk hok
  obtain rfl := Registry.id_of_get? ha
  rw [← Bool.not_eq_true]
  intro hh
  have hvoteless := ((Pass.Whole.begun ⟨_, h⟩).attends hf).voteless
  obtain ⟨-, hsettled⟩ := hvoteless.holds hh
  -- a call that succeeds settles it, so none can have been made
  have hunsettled : ∀ d x, delivery a id d x ∉ p.exchanges := by
    intro d x hx
    have hs := hsettled _ hx
    rw [Recovery.settles_of_isOk (hok _ hx)] at hs
    cases hs
  -- it is asked, and reports what it holds
  obtain ⟨hasks, htells⟩ := hpass.settles hf
  obtain ⟨y, hy⟩ := hasks a (List.mem_of_find?_eq_some ha)
  cases y with
  | error e => cases hok _ hy
  | ok reported =>
    obtain ⟨before, after, hsplit⟩ := List.append_of_mem hy
    have hheld : holds id a.id (H ++ before) = true := by
      rw [hsplit, ← List.append_assoc] at hh
      refine (Voteless.holds (fun e he => hvoteless e ?_) hh).1
      exact hsplit ▸ List.mem_append_right _ he
    have hid : id ∈ reported := (ht.drop before _ after hsplit (a, reported) rfl).mpr hheld
    rcases hpass.reports hf hy hid with ⟨r, hr, hrid⟩ | ⟨d, x, hx⟩
    · obtain ⟨x, hx⟩ := htells r hr a.id hrid a ha
      exact hunsettled _ x hx
    · exact hunsettled d x hx

/-- If all that voted have applied some outcome, all have applied the same, unless the outcome is
mixed. -/
lemma mixed_or_uniform {P : ResourceId → Prop}
    (h : ∀ rid, P rid → Applied id rid .committed es ∨ Applied id rid .rolledBack es) :
    Mixed id es ∨ ∃ d, ∀ rid, P rid → Applied id rid d es := by
  by_cases hc : ∀ rid, P rid → Applied id rid .committed es
  · exact .inr ⟨_, hc⟩
  by_cases hr : ∀ rid, P rid → Applied id rid .rolledBack es
  · exact .inr ⟨_, hr⟩
  push Not at hc hr
  obtain ⟨rid, hrid, hnot⟩ := hc
  obtain ⟨rid', hrid', hnot'⟩ := hr
  have hcommitted := (h rid' hrid').resolve_right hnot'
  have hrolledBack := (h rid hrid).resolve_left hnot
  refine .inl ⟨rid', rid, ?_, hcommitted, hrolledBack⟩
  rintro rfl
  exact hnot hcommitted

end TwoPhaseCommit
