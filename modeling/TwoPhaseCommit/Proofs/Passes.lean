import TwoPhaseCommit.Proofs.Ordering
import TwoPhaseCommit.Proofs.Record
import TwoPhaseCommit.Proofs.Recovery

/-!
# One transaction in a pass of recovery

What a pass does about a transaction depends on the latest record of it that the pass has read, and
on nothing else that the log holds.
-/

namespace TwoPhaseCommit

open LogRecord (latest?)

/-- The adapter of a name has that name. -/
lemma Registry.id_of_get? {g : Registry} {rid : ResourceId} {a : AdapterKey}
    (h : g.get? rid = some a) : a.id = rid := by
  have ha := List.find?_some h
  simpa using ha

namespace Recovery

variable {g : Registry} {r : LogRecord} {rs folded kept : List LogRecord}
  {ids rest : List ResourceId} {a : AdapterKey} {rid : ResourceId} {id : TxId} {txs : List TxId}
  {st st' : RecoveryStats} {es es₁ es₂ : List Exchange}

lemma delivery_inj {a' : AdapterKey} {tx tx' : TxId} {d d' : Decision}
    {x x' : Except ResourceError Unit} (h : delivery a tx d x = delivery a' tx' d' x') :
    a = a' ∧ tx = tx' ∧ d = d' ∧ x = x' := by
  cases d <;> cases d' <;> cases h <;> exact ⟨rfl, rfl, rfl, rfl⟩

lemma inDoubt_ne_delivery {b : AdapterKey} {y : Except ResourceError (List TxId)} {a : AdapterKey}
    {tx : TxId} {d : Decision} {x : Except ResourceError Unit} :
    ⟨.inDoubt b, y⟩ ≠ delivery a tx d x := by
  intro h
  cases d <;> cases h

@[simp] lemma question_delivery (a : AdapterKey) (tx : TxId) (d : Decision)
    (x : Except ResourceError Unit) : (delivery a tx d x).question = telling a tx d := by
  cases d <;> rfl

lemma exists_delivery {e : Exchange} {tx : TxId} {d : Decision} (h : e.question = telling a tx d) :
    ∃ x, e = delivery a tx d x := by
  obtain ⟨q, x⟩ := e
  dsimp only at h
  subst h
  cases d <;> exact ⟨x, rfl⟩

/-! ### The record of the transaction -/

/-- Every participant with an adapter is told. -/
lemma Redrives.questions (h : Redrives g r ids st es rest st') :
    es.map (·.question) = (ids.filterMap g.get?).map fun a => telling a r.tx r.decision := by
  induction h with
  | nil => rfl
  | unknown hg _ ih => simp [hg, ih]
  | confirmed hg _ _ ih => simp [hg, ih]
  | failed hg _ _ ih => simp [hg, ih]

lemma Redrives.told (h : Redrives g r ids st es rest st') {e : Exchange} (he : e ∈ es) :
    ∃ a x, a.id ∈ ids ∧ e = delivery a r.tx r.decision x := by
  have hq : e.question ∈ es.map (·.question) := List.mem_map_of_mem he
  rw [h.questions] at hq
  obtain ⟨a, ha, hq⟩ := List.mem_map.mp hq
  obtain ⟨rid, hrid, hg⟩ := List.mem_filterMap.mp ha
  obtain ⟨x, hx⟩ := exists_delivery hq.symm
  exact ⟨a, x, Registry.id_of_get? hg ▸ hrid, hx⟩

lemma Redrives.tells (h : Redrives g r ids st es rest st') (hr : rid ∈ ids)
    (ha : g.get? rid = some a) : ∃ x, delivery a r.tx r.decision x ∈ es := by
  have hq : telling a r.tx r.decision ∈ es.map (·.question) := by
    rw [h.questions]
    exact List.mem_map_of_mem (List.mem_filterMap.mpr ⟨rid, hr, ha⟩)
  obtain ⟨e, he, hq⟩ := List.mem_map.mp hq
  obtain ⟨x, rfl⟩ := exists_delivery hq
  exact ⟨x, he⟩

/-- Who does not remain has confirmed. -/
lemma Redrives.covers (h : Redrives g r ids st es rest st') (hr : rid ∈ ids) :
    rid ∈ rest ∨ ∃ a x, a.id = rid ∧ Confirms r.decision x ∧ delivery a r.tx r.decision x ∈ es := by
  induction h with
  | nil => cases hr
  | unknown _ _ ih =>
    rcases List.mem_cons.mp hr with rfl | hr
    · exact .inl (List.mem_cons_self ..)
    · exact (ih hr).imp_left (List.mem_cons_of_mem _)
  | confirmed hg hx _ ih =>
    rcases List.mem_cons.mp hr with rfl | hr
    · exact .inr ⟨_, _, Registry.id_of_get? hg, hx, List.mem_cons_self ..⟩
    · refine (ih hr).imp_right ?_
      rintro ⟨a, x, ha, hx, he⟩
      exact ⟨a, x, ha, hx, List.mem_cons_of_mem _ he⟩
  | failed hg _ _ ih =>
    rcases List.mem_cons.mp hr with rfl | hr
    · exact .inl (List.mem_cons_self ..)
    · refine (ih hr).imp (List.mem_cons_of_mem _) ?_
      rintro ⟨a, x, ha, hx, he⟩
      exact ⟨a, x, ha, hx, List.mem_cons_of_mem _ he⟩

/-- Nobody remains exactly if everybody has an adapter that always confirms. -/
lemma Redrives.rest_eq_nil_iff (h : Redrives g r ids st es rest st') :
    rest = [] ↔ ∀ rid ∈ ids, ∃ a, g.get? rid = some a ∧
      ∀ x, delivery a r.tx r.decision x ∈ es → Confirms r.decision x := by
  constructor
  · rintro rfl
    have hall : ∀ e ∈ es, ∃ a x, Confirms r.decision x ∧ e = delivery a r.tx r.decision x := by
      -- nobody remains at the end, and so at no point before
      generalize hn : ([] : List ResourceId) = rest at h
      induction h with
      | nil => simp
      | unknown _ _ _ => cases hn
      | confirmed _ hx _ ih => exact List.forall_mem_cons.mpr ⟨⟨_, _, hx, rfl⟩, ih hn⟩
      | failed _ _ _ _ => cases hn
    intro rid hr
    obtain ⟨a, ha⟩ : ∃ a, g.get? rid = some a := by
      clear hall
      generalize hn : ([] : List ResourceId) = rest at h
      induction h with
      | nil => cases hr
      | unknown _ _ _ => cases hn
      | confirmed hg _ _ ih =>
        rcases List.mem_cons.mp hr with rfl | hr
        · exact ⟨_, hg⟩
        · exact ih hr hn
      | failed _ _ _ _ => cases hn
    refine ⟨a, ha, fun x hx => ?_⟩
    obtain ⟨b, y, hy, he⟩ := hall _ hx
    obtain ⟨-, -, -, rfl⟩ := delivery_inj he
    exact hy
  · intro hall
    induction h with
    | nil => rfl
    | unknown hg _ _ =>
      obtain ⟨a, ha, -⟩ := hall _ (List.mem_cons_self ..)
      rw [hg] at ha
      cases ha
    | confirmed _ _ _ ih =>
      apply ih
      intro rid hr
      obtain ⟨a, ha, hx⟩ := hall rid (List.mem_cons_of_mem _ hr)
      exact ⟨a, ha, fun x he => hx x (List.mem_cons_of_mem _ he)⟩
    | failed hg he _ _ =>
      obtain ⟨a, ha, hx⟩ := hall _ (List.mem_cons_self ..)
      obtain rfl := Option.some.inj (hg.symm.trans ha)
      rcases hx _ (List.mem_cons_self ..) with h | h
      · cases h
      · exact absurd (Except.error.inj h) he

/-! ### The records of a log -/

lemma RedrivesAll.told (h : RedrivesAll g rs st es kept st') :
    ∀ e ∈ es, ∃ r ∈ rs, ∃ a x, e = delivery a r.tx r.decision x := by
  induction h with
  | nil => simp
  | resolved h _ ih =>
    intro e he
    rcases List.mem_append.mp he with he | he
    · obtain ⟨a, x, -, hx⟩ := h.told he
      exact ⟨_, List.mem_cons_self .., a, x, hx⟩
    · obtain ⟨r, hr, hx⟩ := ih e he
      exact ⟨r, List.mem_cons_of_mem _ hr, hx⟩
  | kept _ _ h _ ih =>
    intro e he
    rcases List.mem_append.mp he with he | he
    · obtain ⟨a, x, -, hx⟩ := h.told he
      exact ⟨_, List.mem_cons_self .., a, x, hx⟩
    · obtain ⟨r, hr, hx⟩ := ih e he
      exact ⟨r, List.mem_cons_of_mem _ hr, hx⟩

@[simp] lemma tx_remaining (r : LogRecord) (rest : List ResourceId) (now : UInt64) :
    (remaining r rest now).tx = r.tx := by
  unfold remaining
  split <;> rfl

@[simp] lemma decision_remaining (r : LogRecord) (rest : List ResourceId) (now : UInt64) :
    (remaining r rest now).decision = r.decision := by
  unfold remaining
  split <;> rfl

@[simp] lemma pending_remaining (r : LogRecord) (rest : List ResourceId) (now : UInt64) :
    (remaining r rest now).pending = rest := by
  unfold remaining
  split
  next h => exact h.symm
  next => rfl

/-- Records are kept of transactions that had records. -/
lemma RedrivesAll.tx_kept (h : RedrivesAll g rs st es kept st') :
    (kept.map (·.tx)).Sublist (rs.map (·.tx)) := by
  induction h with
  | nil => exact .refl _
  | resolved _ _ ih => exact ih.cons _
  | kept _ _ _ _ ih =>
    rw [List.map_cons, List.map_cons, tx_remaining]
    exact ih.cons_cons _

/-- What comes before a record, what is done about it, and what comes after. -/
lemma RedrivesAll.split {rs₁ rs₂ : List LogRecord}
    (h : RedrivesAll g (rs₁ ++ r :: rs₂) st es kept st') :
    ∃ es₁ es₂ es₃ kept₁ kept₂ rest now st₁ st₂ st₃, es = es₁ ++ (es₂ ++ es₃) ∧
      RedrivesAll g rs₁ st es₁ kept₁ st₁ ∧ Redrives g r r.pending st₁ es₂ rest st₂ ∧
      RedrivesAll g rs₂ st₃ es₃ kept₂ st' ∧
      kept = kept₁ ++ ((if rest = [] then [] else [remaining r rest now]) ++ kept₂) := by
  induction rs₁ generalizing st es kept with
  | nil =>
    cases h with
    | @resolved _ _ kept st st₁ st' es es' h h' =>
      exact ⟨[], es, es', [], kept, [], 0, st, st₁, _, rfl, .nil, h, h', rfl⟩
    | @kept _ _ kept st st₁ st' es es' rest now hr h h' =>
      exact ⟨[], es, es', [], kept, rest, now, st, st₁, _, rfl, .nil, h, h', by simp [hr]⟩
  | cons q rs₁ ih =>
    cases h with
    | @resolved _ _ kept _ st₁ st' es es' h h' =>
      obtain ⟨es₁, es₂, es₃, kept₁, kept₂, rest, now, st₂, st₃, st₄, rfl, h₁, h₂, h₃, rfl⟩ := ih h'
      exact ⟨es ++ es₁, es₂, es₃, kept₁, kept₂, rest, now, st₂, st₃, st₄, by simp,
        .resolved h h₁, h₂, h₃, rfl⟩
    | @kept _ _ kept _ st₁ st' es es' rest' now' hr h h' =>
      obtain ⟨es₁, es₂, es₃, kept₁, kept₂, rest, now, st₂, st₃, st₄, rfl, h₁, h₂, h₃, rfl⟩ := ih h'
      exact ⟨es ++ es₁, es₂, es₃, remaining q rest' now' :: kept₁, kept₂, rest, now, st₂, st₃, st₄,
        by simp, .kept now' hr h h₁, h₂, h₃, rfl⟩

lemma mem_unresolved {q : LogRecord} : q ∈ unresolved rs ↔ q ∈ rs ∧ q.pending ≠ [] := by
  simp [unresolved, LogRecord.isResolved]

/-- Without a record of a transaction nothing is done about it. -/
lemma RedrivesAll.absent (h : RedrivesAll g rs st es kept st') (hn : ∀ r ∈ rs, r.tx ≠ id) :
    (∀ a d x, delivery a id d x ∉ es) ∧ ∀ r ∈ kept, r.tx ≠ id := by
  constructor
  · intro a d x he
    obtain ⟨r, hr, b, y, hy⟩ := h.told _ he
    exact hn r hr (delivery_inj hy).2.1.symm
  · intro r hr hid
    obtain ⟨q, hq, hqr⟩ := List.mem_map.mp (h.tx_kept.subset (List.mem_map_of_mem hr))
    exact hn q hq (hqr.trans hid)

lemma RedrivesAll.of_none (h : RedrivesAll g (unresolved (LogRecord.fold rs)) st es kept st')
    (hn : latest? id rs = none) : (∀ a d x, delivery a id d x ∉ es) ∧ latest? id kept = none := by
  have habsent : ∀ r ∈ unresolved (LogRecord.fold rs), r.tx ≠ id := by
    intro r hr hid
    have hlatest := LogRecord.latest?_of_mem_fold (mem_unresolved.mp hr).1
    rw [hid, hn] at hlatest
    cases hlatest
  obtain ⟨htold, hkept⟩ := h.absent habsent
  exact ⟨htold, LogRecord.latest?_eq_none_iff.mpr hkept⟩

/-- What is done about a transaction that has a record. -/
lemma RedrivesAll.of_some (h : RedrivesAll g (unresolved (LogRecord.fold rs)) st es kept st')
    (hr : latest? id rs = some r) :
    ∃ es₁ rest st₁ st₂, Redrives g r r.pending st₁ es₁ rest st₂ ∧
      (∀ a d x, delivery a id d x ∈ es ↔ delivery a id d x ∈ es₁) ∧
      (rest = [] ∧ latest? id kept = none ∨
        rest ≠ [] ∧ ∃ q, latest? id kept = some q ∧ q.decision = r.decision ∧
          q.pending = rest) := by
  have hmem := LogRecord.mem_fold_of_latest? hr
  have hid : r.tx = id := (LogRecord.latest?_mem hr).2
  by_cases hp : r.pending = []
  · -- a resolved record is passed over
    have habsent : ∀ q ∈ unresolved (LogRecord.fold rs), q.tx ≠ id := by
      intro q hq hqid
      obtain ⟨hq, hqp⟩ := mem_unresolved.mp hq
      have hlatest := LogRecord.latest?_of_mem_fold hq
      rw [hqid, hr] at hlatest
      obtain rfl := Option.some.inj hlatest
      exact hqp hp
    obtain ⟨htold, hkept⟩ := h.absent habsent
    refine ⟨[], [], st, st, ?_, ?_, .inl ⟨rfl, LogRecord.latest?_eq_none_iff.mpr hkept⟩⟩
    · rw [hp]
      exact .nil
    · intro a d x
      exact iff_of_false (htold a d x) (List.not_mem_nil)
  · -- it is the only record of the transaction, so that the rest of the pass is about others
    obtain ⟨rs₁, rs₂, hsplit⟩ := List.append_of_mem (mem_unresolved.mpr ⟨hmem, hp⟩)
    have hnodup : ((unresolved (LogRecord.fold rs)).map (·.tx)).Nodup :=
      (List.filter_sublist.map _).nodup (LogRecord.nodup_fold rs)
    rw [hsplit] at h hnodup
    obtain ⟨es₁, es₂, es₃, kept₁, kept₂, rest, now, st₁, st₂, st₃, rfl, h₁, h₂, h₃, rfl⟩ := h.split
    rw [List.map_append, List.map_cons, List.nodup_append, List.nodup_cons] at hnodup
    obtain ⟨-, ⟨hafter, -⟩, hbefore⟩ := hnodup
    have hother₁ : ∀ q ∈ rs₁, q.tx ≠ id := fun q hq hqid =>
      hbefore q.tx (List.mem_map_of_mem hq) r.tx (List.mem_cons_self ..) (hqid.trans hid.symm)
    have hother₂ : ∀ q ∈ rs₂, q.tx ≠ id := fun q hq hqid =>
      hafter (hid ▸ hqid ▸ List.mem_map_of_mem hq)
    obtain ⟨htold₁, hkept₁⟩ := h₁.absent hother₁
    obtain ⟨htold₃, hkept₂⟩ := h₃.absent hother₂
    refine ⟨es₂, rest, st₁, st₂, h₂, fun a d x => ?_, ?_⟩
    · constructor
      · intro he
        rcases List.mem_append.mp he with he | he
        · exact absurd he (htold₁ a d x)
        · exact (List.mem_append.mp he).resolve_right (htold₃ a d x)
      · intro he
        exact List.mem_append_right _ (List.mem_append_left _ he)
    · by_cases hrest : rest = []
      · left
        refine ⟨hrest, LogRecord.latest?_eq_none_iff.mpr fun q hq => ?_⟩
        rw [if_pos hrest, List.nil_append] at hq
        exact (List.mem_append.mp hq).elim (hkept₁ q) (hkept₂ q)
      · right
        refine ⟨hrest, remaining r rest now, ?_, decision_remaining .., pending_remaining ..⟩
        rw [if_neg hrest, ← List.append_assoc, LogRecord.latest?_append_of_ne hkept₂,
          LogRecord.latest?_concat, if_pos ((tx_remaining ..).trans hid)]

/-! ### What adapters report -/

lemma outcome_of_none (h : latest? id rs = none) :
    outcome (LogRecord.fold rs) id = .rolledBack := by
  rw [outcome, LogRecord.find?_fold, h]

lemma outcome_of_some (h : latest? id rs = some r) :
    outcome (LogRecord.fold rs) id = r.decision := by
  rw [outcome, LogRecord.find?_fold, h]

lemma isHandled_iff :
    isHandled (LogRecord.fold rs) id rid = true ↔ ∃ r ∈ latest? id rs, rid ∈ r.pending := by
  unfold isHandled
  rw [List.any_eq_true]
  constructor
  · rintro ⟨r, hr, hrid⟩
    rw [Bool.and_eq_true, beq_iff_eq, List.contains_iff_mem] at hrid
    obtain ⟨rfl, hrid⟩ := hrid
    exact ⟨r, LogRecord.latest?_of_mem_fold hr, hrid⟩
  · rintro ⟨r, hr, hrid⟩
    refine ⟨r, LogRecord.mem_fold_of_latest? hr, ?_⟩
    rw [Bool.and_eq_true, beq_iff_eq, List.contains_iff_mem]
    exact ⟨(LogRecord.latest?_mem hr).2, hrid⟩

/-- An adapter is told of all that it reports, but for what the log had pending. -/
lemma Settles.questions (h : Settles folded a txs st es st') :
    es.map (·.question) = (txs.filter fun tx => !isHandled folded tx a.id).map fun tx =>
      telling a tx (outcome folded tx) := by
  induction h with
  | nil => rfl
  | handled ht _ ih => simp [ht, ih]
  | committed ht ho _ _ ih => simp [ht, ho, ih]
  | rolledBack ht ho _ _ ih => simp [ht, ho, ih]
  | unresolved ht _ _ ih => simp [ht, ih]

lemma Settles.told (h : Settles folded a txs st es st') {e : Exchange} (he : e ∈ es) :
    ∃ tx ∈ txs, ∃ x, e = delivery a tx (outcome folded tx) x ∧
      isHandled folded tx a.id = false := by
  have hq : e.question ∈ es.map (·.question) := List.mem_map_of_mem he
  rw [h.questions] at hq
  obtain ⟨tx, htx, hq⟩ := List.mem_map.mp hq
  obtain ⟨htx, hn⟩ := List.mem_filter.mp htx
  obtain ⟨x, hx⟩ := exists_delivery hq.symm
  exact ⟨tx, htx, x, hx, by simpa using hn⟩

lemma Settles.tells (h : Settles folded a txs st es st') (hid : id ∈ txs)
    (hn : isHandled folded id a.id = false) : ∃ x, delivery a id (outcome folded id) x ∈ es := by
  have hq : telling a id (outcome folded id) ∈ es.map (·.question) := by
    rw [h.questions]
    exact List.mem_map.mpr ⟨id, List.mem_filter.mpr ⟨hid, by simp [hn]⟩, rfl⟩
  obtain ⟨e, he, hq⟩ := List.mem_map.mp hq
  obtain ⟨x, rfl⟩ := exists_delivery hq
  exact ⟨x, he⟩

lemma SettlesAll.told (h : SettlesAll folded g st es st') :
    ∀ e ∈ es, (∃ a y, e = ⟨.inDoubt a, y⟩) ∨
      ∃ a tx x, e = delivery a tx (outcome folded tx) x ∧ isHandled folded tx a.id = false := by
  induction h with
  | nil => simp
  | silent e _ ih => exact List.forall_mem_cons.mpr ⟨.inl ⟨_, _, rfl⟩, ih⟩
  | heard reported h _ ih =>
    refine List.forall_mem_cons.mpr ⟨.inl ⟨_, _, rfl⟩, fun e he => ?_⟩
    rcases List.mem_append.mp he with he | he
    · obtain ⟨tx, -, x, hx⟩ := h.told he
      exact .inr ⟨_, tx, x, hx⟩
    · exact ih e he

/-- An adapter is told nothing but of transactions that it has reported. -/
lemma SettlesAll.reported (h : SettlesAll folded g st es st') :
    Throughout (fun pre e => ∀ a tx d x, e = delivery a tx d x →
      ∃ reported, ⟨.inDoubt a, .ok reported⟩ ∈ pre ∧ tx ∈ reported) es := by
  induction h with
  | nil => exact throughout_of_forall (by simp)
  | silent e _ ih =>
    refine .cons (fun a tx d x he => absurd he inDoubt_ne_delivery) (ih.mono ?_)
    intro pre e hpre a tx d x he
    obtain ⟨reported, hr, ht⟩ := hpre a tx d x he
    exact ⟨reported, List.mem_cons_of_mem _ hr, ht⟩
  | heard reported h _ ih =>
    refine .cons (fun a tx d x he => absurd he inDoubt_ne_delivery) (.append ?_ ?_)
    · apply throughout_of_forall
      intro e he pre a tx d x hx
      obtain ⟨tx', htx, y, hy, -⟩ := h.told he
      obtain ⟨rfl, rfl, -, -⟩ := delivery_inj (hx.symm.trans hy)
      exact ⟨reported, List.mem_cons_self .., htx⟩
    · refine ih.mono ?_
      intro pre e hpre a tx d x he
      obtain ⟨reported', hr, ht⟩ := hpre a tx d x he
      exact ⟨reported', List.mem_cons_of_mem _ (List.mem_append_right _ hr), ht⟩

lemma SettlesAll.asks (h : SettlesAll folded g st es st') (ha : a ∈ g) :
    ∃ y, ⟨.inDoubt a, y⟩ ∈ es := by
  induction h with
  | nil => cases ha
  | silent e _ ih =>
    rcases List.mem_cons.mp ha with rfl | ha
    · exact ⟨_, List.mem_cons_self ..⟩
    · obtain ⟨y, hy⟩ := ih ha
      exact ⟨y, List.mem_cons_of_mem _ hy⟩
  | heard reported _ _ ih =>
    rcases List.mem_cons.mp ha with rfl | ha
    · exact ⟨_, List.mem_cons_self ..⟩
    · obtain ⟨y, hy⟩ := ih ha
      exact ⟨y, List.mem_cons_of_mem _ (List.mem_append_right _ hy)⟩

lemma SettlesAll.tells (h : SettlesAll folded g st es st') {reported : List TxId}
    (hr : ⟨.inDoubt a, .ok reported⟩ ∈ es) (hid : id ∈ reported)
    (hn : isHandled folded id a.id = false) : ∃ x, delivery a id (outcome folded id) x ∈ es := by
  induction h with
  | nil => cases hr
  | silent e _ ih =>
    rcases List.mem_cons.mp hr with hr | hr
    · cases hr
    · obtain ⟨x, hx⟩ := ih hr
      exact ⟨x, List.mem_cons_of_mem _ hx⟩
  | heard reported' h _ ih =>
    rcases List.mem_cons.mp hr with hr | hr
    · cases hr
      obtain ⟨x, hx⟩ := h.tells hid hn
      exact ⟨x, List.mem_cons_of_mem _ (List.mem_append_left _ hx)⟩
    · rcases List.mem_append.mp hr with hr | hr
      · obtain ⟨tx, -, x, hx, -⟩ := h.told hr
        exact absurd hx inDoubt_ne_delivery
      · obtain ⟨x, hx⟩ := ih hr
        exact ⟨x, List.mem_cons_of_mem _ (List.mem_append_right _ hx)⟩

/-! ### A pass, or the beginning of one -/

/-- What a pass does about a transaction of which `r?` is the latest record, if there is one. -/
structure Attends (id : TxId) (r? : Option LogRecord) (es : List Exchange) : Prop where
  /-- Nobody votes or commits in one phase, and nothing is appended to the log. -/
  apart : ∀ e ∈ es, (∀ k i, e.question ≠ .prepare k i) ∧ (∀ k i, e.question ≠ .commit k i true) ∧
    ∀ l r, e.question ≠ .append l r
  /-- What is told is the recorded outcome. Without a record it is a rollback, and only who reports
  the transaction is told. -/
  told : Throughout (fun pre e => ∀ a d x, e = delivery a id d x →
    (∃ r ∈ r?, d = r.decision) ∨
    r? = none ∧ d = .rolledBack ∧ ∃ reported, ⟨.inDoubt a, .ok reported⟩ ∈ pre ∧ id ∈ reported) es
  /-- The record that is kept has the same outcome, and whoever is not pending any more has
  confirmed. -/
  replaces : Throughout (fun pre e => ∀ l qs, e.question = .replace l qs →
    (∀ q ∈ latest? id qs, ∃ r ∈ r?, q.decision = r.decision) ∧
    ∀ r ∈ r?, ∀ rid ∈ r.pending, (∃ q ∈ latest? id qs, rid ∈ q.pending) ∨
      ∃ a x, a.id = rid ∧ Confirms r.decision x ∧ delivery a id r.decision x ∈ pre) es

variable {r? : Option LogRecord}

lemma Attends.of_prefix (h : Attends id r? es) (hp : es₁ <+: es) : Attends id r? es₁ where
  apart e he := h.apart e (hp.subset he)
  told := h.told.of_prefix hp
  replaces := h.replaces.of_prefix hp

lemma Attends.append (h₁ : Attends id r? es₁) (h₂ : Attends id r? es₂) :
    Attends id r? (es₁ ++ es₂) where
  apart e he := (List.mem_append.mp he).elim (h₁.apart e) (h₂.apart e)
  told := by
    refine h₁.told.append (h₂.told.mono fun pre e hpre a d x he => (hpre a d x he).imp_right ?_)
    rintro ⟨hr, hd, reported, ha, hid⟩
    exact ⟨hr, hd, reported, List.mem_append_right _ ha, hid⟩
  replaces := by
    refine h₁.replaces.append (h₂.replaces.mono fun pre e hpre l qs he => ?_)
    obtain ⟨hq, hcovers⟩ := hpre l qs he
    refine ⟨hq, fun r hr rid hrid => (hcovers r hr rid hrid).imp_right ?_⟩
    rintro ⟨a, x, ha, hx, he⟩
    exact ⟨a, x, ha, hx, List.mem_append_right _ he⟩

lemma apart_telling (a : AdapterKey) (tx : TxId) (d : Decision) :
    (∀ k i, telling a tx d ≠ .prepare k i) ∧ (∀ k i, telling a tx d ≠ .commit k i true) ∧
      (∀ l r, telling a tx d ≠ .append l r) ∧ ∀ l qs, telling a tx d ≠ .replace l qs := by
  cases d <;> simp [telling]

lemma attends_read (id : TxId) (r? : Option LogRecord) (log : LogRef)
    (y : Except StorageError (List LogRecord)) : Attends id r? [⟨.readAll log, y⟩] where
  apart e he := by
    obtain rfl := List.mem_singleton.mp he
    simp
  told := by
    apply throughout_of_forall
    intro e he pre a d x hx
    obtain rfl := List.mem_singleton.mp he
    cases d <;> cases hx
  replaces := by
    apply throughout_of_forall
    intro e he pre l qs hq
    obtain rfl := List.mem_singleton.mp he
    cases hq

lemma RedrivesAll.attends (h : RedrivesAll g (unresolved (LogRecord.fold rs)) st es kept st')
    (id : TxId) : Attends id (latest? id rs) es where
  apart e he := by
    obtain ⟨r, -, a, x, rfl⟩ := h.told e he
    rw [question_delivery]
    obtain ⟨h₁, h₂, h₃, -⟩ := apart_telling a r.tx r.decision
    exact ⟨h₁, h₂, h₃⟩
  told := by
    refine throughout_of_forall fun e he pre a d x hx => .inl ?_
    subst hx
    cases hr : latest? id rs with
    | none => exact absurd he ((h.of_none hr).1 a d x)
    | some r =>
      obtain ⟨es₁, rest, st₁, st₂, h₁, hmem, -⟩ := h.of_some hr
      obtain ⟨b, y, -, hy⟩ := h₁.told ((hmem a d x).mp he)
      exact ⟨r, rfl, (delivery_inj hy).2.2.1⟩
  replaces := by
    apply throughout_of_forall
    intro e he pre l qs hq
    obtain ⟨r, -, a, x, rfl⟩ := h.told e he
    rw [question_delivery] at hq
    exact absurd hq ((apart_telling a r.tx r.decision).2.2.2 l qs)

/-- The log is rewritten when the recorded outcomes have been told. -/
lemma RedrivesAll.attends_replace
    (h : RedrivesAll g (unresolved (LogRecord.fold rs)) st es kept st') (id : TxId) (log : LogRef)
    (y : Except StorageError Unit) : Attends id (latest? id rs) (es ++ [⟨.replace log kept, y⟩]) where
  apart e he := by
    rcases List.mem_append.mp he with he | he
    · exact (h.attends id).apart e he
    · obtain rfl := List.mem_singleton.mp he
      simp
  told := by
    refine (h.attends id).told.append (throughout_of_forall fun e he pre a d x hx => ?_)
    obtain rfl := List.mem_singleton.mp he
    cases d <;> cases hx
  replaces := by
    refine (h.attends id).replaces.append (throughout_of_forall fun e he pre l qs hq => ?_)
    obtain rfl := List.mem_singleton.mp he
    cases hq
    cases hr : latest? id rs with
    | none =>
      rw [(h.of_none hr).2]
      simp
    | some r =>
      obtain ⟨es₁, rest, st₁, st₂, h₁, hmem, hkept⟩ := h.of_some hr
      refine ⟨fun q hq => ?_, fun r' hr' rid hrid => ?_⟩
      · rcases hkept with ⟨-, hnone⟩ | ⟨-, q', hq', hd, -⟩
        · rw [hnone] at hq
          cases hq
        · obtain rfl := Option.some.inj (hq'.symm.trans hq)
          exact ⟨r, rfl, hd⟩
      · obtain rfl := Option.some.inj hr'
        -- who was pending is so still, or has confirmed
        rcases h₁.covers hrid with hrest | ⟨a, x, ha, hx, he⟩
        · rcases hkept with ⟨hnil, -⟩ | ⟨-, q, hq, -, hpending⟩
          · rw [hnil] at hrest
            cases hrest
          · exact .inl ⟨q, hq, hpending ▸ hrest⟩
        · obtain hid := (LogRecord.latest?_mem hr).2
          rw [hid, ← hmem] at he
          exact .inr ⟨a, x, ha, hx, List.mem_append_left _ he⟩

lemma SettlesAll.attends (h : SettlesAll (LogRecord.fold rs) g st es st') (id : TxId) :
    Attends id (latest? id rs) es where
  apart e he := by
    rcases h.told e he with ⟨a, y, rfl⟩ | ⟨a, tx, x, rfl, -⟩
    · simp
    · rw [question_delivery]
      obtain ⟨h₁, h₂, h₃, -⟩ := apart_telling a tx (outcome (LogRecord.fold rs) tx)
      exact ⟨h₁, h₂, h₃⟩
  told := by
    intro pre e post hes a d x hx
    have he : e ∈ es := hes ▸ List.mem_append_right _ (List.mem_cons_self ..)
    have hd : d = outcome (LogRecord.fold rs) id := by
      rcases h.told e he with ⟨b, y, hy⟩ | ⟨b, tx, y, hy, -⟩
      · exact absurd (hy.symm.trans hx) inDoubt_ne_delivery
      · obtain ⟨-, rfl, rfl, -⟩ := delivery_inj (hx.symm.trans hy)
        rfl
    cases hr : latest? id rs with
    | none => exact .inr ⟨rfl, hd.trans (outcome_of_none hr), h.reported pre e post hes a id d x hx⟩
    | some r => exact .inl ⟨r, rfl, hd.trans (outcome_of_some hr)⟩
  replaces := by
    apply throughout_of_forall
    intro e he pre l qs hq
    rcases h.told e he with ⟨a, y, rfl⟩ | ⟨a, tx, x, rfl, -⟩
    · cases hq
    · rw [question_delivery] at hq
      exact absurd hq ((apart_telling a tx _).2.2.2 l qs)

/-- A pass reads the log and attends to each transaction by its latest record. -/
lemma Recovers.attends_latest {log : LogRef} {result : Except StorageError RecoveryStats}
    (h : Recovers log g es result) (id : TxId) :
    (∃ e, es = [⟨.readAll log, .error e⟩]) ∨
      ∃ rs es', es = ⟨.readAll log, .ok rs⟩ :: es' ∧ Attends id (latest? id rs) es := by
  cases h with
  | unreadable e => exact .inl ⟨e, rfl⟩
  | unchanged h h' =>
    exact .inr ⟨_, _, rfl, (attends_read ..).append ((h.attends id).append (h'.attends id))⟩
  | refused e _ h =>
    exact .inr ⟨_, _, rfl, (attends_read ..).append (h.attends_replace id log _)⟩
  | replaced _ h h' =>
    refine .inr ⟨_, _, rfl, ?_⟩
    rw [List.append_cons, ← List.singleton_append]
    exact (attends_read ..).append ((h.attends_replace id log _).append (h'.attends id))

end Recovery

end TwoPhaseCommit
