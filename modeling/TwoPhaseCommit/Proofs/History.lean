import TwoPhaseCommit.Proofs.Passes

/-!
# What a log holds

What a log holds of a transaction follows from the exchanges so far: appends and rewrites count if
they succeeded. A history is faithful if whoever read the log was told what it held.
-/

namespace TwoPhaseCommit

open LogRecord (latest?)

/-- The latest record of a transaction after an exchange. -/
def Exchange.writes (id : TxId) (r? : Option LogRecord) : Exchange → Option LogRecord
  | ⟨.append _ r, .ok ()⟩ => if r.tx = id then some r else r?
  | ⟨.replace _ rs, .ok ()⟩ => latest? id rs
  | _ => r?

/-- The latest record of a transaction that a log holds after some exchanges. -/
def durable (id : TxId) (r? : Option LogRecord) (es : List Exchange) : Option LogRecord :=
  es.foldl (Exchange.writes id) r?

/-- What was read from the log. -/
def Exchange.read? : Exchange → Option (List LogRecord)
  | ⟨.readAll _, .ok rs⟩ => some rs
  | _ => none

/-- Whoever reads the log is told what it holds of a transaction. -/
def Faithful (id : TxId) (r? : Option LogRecord) (es : List Exchange) : Prop :=
  Throughout (fun pre e => ∀ rs ∈ e.read?, latest? id rs = durable id r? pre) es

instance (id : TxId) (r? : Option LogRecord) (es : List Exchange) : Decidable (Faithful id r? es) :=
  Throughout.decidable _ es

variable {id : TxId} {r : LogRecord} {r? : Option LogRecord} {es es₁ es₂ : List Exchange}

@[simp] lemma durable_nil (id : TxId) (r? : Option LogRecord) : durable id r? [] = r? := rfl

@[simp] lemma durable_cons (id : TxId) (r? : Option LogRecord) (e : Exchange) (es : List Exchange) :
    durable id r? (e :: es) = durable id (e.writes id r?) es := rfl

@[simp] lemma durable_append (id : TxId) (r? : Option LogRecord) (es₁ es₂ : List Exchange) :
    durable id r? (es₁ ++ es₂) = durable id (durable id r? es₁) es₂ :=
  List.foldl_append

lemma Faithful.left (h : Faithful id r? (es₁ ++ es₂)) : Faithful id r? es₁ :=
  h.of_prefix (List.prefix_append ..)

lemma Faithful.right (h : Faithful id r? (es₁ ++ es₂)) : Faithful id (durable id r? es₁) es₂ :=
  h.drop.mono fun _ _ hpre rs he => (hpre rs he).trans (durable_append ..)

/-- Whether a question is about a log. -/
def Question.isAboutLog : Question → Bool
  | append .. | readAll _ | replace .. => true
  | _ => false

/-- Only appends and rewrites change what a log holds. -/
lemma Exchange.writes_of_ne {e : Exchange} (ha : ∀ l q, e.question ≠ .append l q)
    (hr : ∀ l qs, e.question ≠ .replace l qs) : e.writes id r? = r? := by
  obtain ⟨q, a⟩ := e
  cases q with
  | append l q => exact absurd rfl (ha l q)
  | replace l qs => exact absurd rfl (hr l qs)
  | _ => rfl

lemma Exchange.writes_of_apart {e : Exchange} (h : e.question.isAboutLog = false) :
    e.writes id r? = r? := by
  refine writes_of_ne (fun l q hq => ?_) fun l qs hq => ?_
  all_goals
    rw [hq] at h
    cases h

lemma durable_of_writes (h : ∀ e ∈ es, ∀ q?, e.writes id q? = q?) : durable id r? es = r? := by
  induction es with
  | nil => rfl
  | cons e es ih =>
    rw [List.forall_mem_cons] at h
    rw [durable_cons, h.1]
    exact ih h.2

lemma durable_of_apart (h : ∀ e ∈ es, e.question.isAboutLog = false) : durable id r? es = r? :=
  durable_of_writes fun e he _ => Exchange.writes_of_apart (h e he)

namespace Recovery

variable {g : Registry} {rs kept folded : List LogRecord} {st st' : RecoveryStats}

lemma isAboutLog_telling (a : AdapterKey) (tx : TxId) (d : Decision) :
    (telling a tx d).isAboutLog = false := by
  cases d <;> rfl

/-- While a transaction is attended to its record keeps its outcome, and whoever is not pending any
more has confirmed. -/
lemma Attends.keeps (h : Attends id r? es) :
    (∀ q ∈ durable id r? es, ∃ r ∈ r?, q.decision = r.decision) ∧
    ∀ r ∈ r?, ∀ rid ∈ r.pending, (∃ q ∈ durable id r? es, rid ∈ q.pending) ∨
      ∃ a x, a.id = rid ∧ Confirms r.decision x ∧ delivery a id r.decision x ∈ es := by
  induction es using List.reverseRecOn with
  | nil => exact ⟨fun q hq => ⟨q, hq, rfl⟩, fun r hr rid hrid => .inl ⟨r, hr, hrid⟩⟩
  | append_singleton es e ih =>
    obtain ⟨hkeeps, hcovers⟩ := ih (h.of_prefix (List.prefix_append ..))
    -- unless the records are replaced, there is nothing new to show
    have hlater : ∀ {q : Option LogRecord}, q = durable id r? es →
        (∀ q' ∈ q, ∃ r ∈ r?, q'.decision = r.decision) ∧
        ∀ r ∈ r?, ∀ rid ∈ r.pending, (∃ q' ∈ q, rid ∈ q'.pending) ∨
          ∃ a x, a.id = rid ∧ Confirms r.decision x ∧ delivery a id r.decision x ∈ es ++ [e] := by
      rintro q rfl
      refine ⟨hkeeps, fun r hr rid hrid => (hcovers r hr rid hrid).imp_right ?_⟩
      rintro ⟨a, x, ha, hx, he⟩
      exact ⟨a, x, ha, hx, List.mem_append_left _ he⟩
    rw [durable_append, durable_cons, durable_nil]
    have hapart := (h.apart e (List.mem_append_right _ (List.mem_singleton_self e))).2.2
    by_cases hq : ∃ l qs, e.question = .replace l qs
    · obtain ⟨q, a⟩ := e
      obtain ⟨l, qs, rfl⟩ : ∃ l qs, q = .replace l qs := hq
      cases a with
      | error e => exact hlater rfl
      | ok u =>
        obtain ⟨hq, hc⟩ := h.replaces es _ [] rfl l qs rfl
        refine ⟨hq, fun r hr rid hrid => (hc r hr rid hrid).imp_right ?_⟩
        rintro ⟨a, x, ha, hx, he⟩
        exact ⟨a, x, ha, hx, List.mem_append_left _ he⟩
    · refine hlater (Exchange.writes_of_ne hapart fun l qs hqs => hq ⟨l, qs, hqs⟩)

/-- While a commit is on record nobody is told to roll back. -/
lemma Attends.not_rollback (h : Attends id (some r) es) (hr : r.decision = .committed)
    {e : Exchange} (he : e ∈ es) (k : AdapterKey) : e.question ≠ .rollback k id := by
  intro hq
  obtain ⟨pre, post, hsplit⟩ := List.append_of_mem he
  obtain ⟨x, rfl⟩ := exists_delivery (d := .rolledBack) hq
  rcases h.told pre _ post hsplit k _ x rfl with ⟨q, hq, hd⟩ | ⟨hnone, -⟩
  · obtain rfl := Option.some.inj hq
    rw [hr] at hd
    cases hd
  · cases hnone

/-- While nothing is on record nothing comes to be. -/
lemma Attends.unrecorded (h : Attends id none es) : durable id none es = none := by
  cases hq : durable id none es with
  | none => rfl
  | some q =>
    obtain ⟨r, hr, -⟩ := h.keeps.1 q hq
    cases hr

variable {log : LogRef} {a : AdapterKey} {result : Except StorageError RecoveryStats}

/-- A pass attends to a transaction by the record that the log holds of it, however far it comes. -/
lemma Recovers.attends (h : Recovers log g (es₁ ++ es₂) result) (hf : Faithful id r? es₁) :
    Attends id r? es₁ := by
  cases es₁ with
  | nil => exact ⟨by simp, throughout_nil, throughout_nil⟩
  | cons e es =>
    rcases h.attends_latest id with ⟨e', hes⟩ | ⟨rs, es', hes, hattends⟩
    · rw [List.cons_append, List.cons.injEq] at hes
      obtain ⟨rfl, hes⟩ := hes
      obtain ⟨rfl, -⟩ := List.append_eq_nil_iff.mp hes
      exact attends_read ..
    · obtain ⟨rfl, -⟩ := List.cons.inj hes
      have hr : latest? id rs = r? := hf [] _ es rfl rs rfl
      rw [hr] at hattends
      exact hattends.of_prefix (List.prefix_append ..)

/-! ### Whole passes -/

lemma RedrivesAll.not_inDoubt (h : RedrivesAll g rs st es kept st')
    {y : Except ResourceError (List TxId)} : ⟨.inDoubt a, y⟩ ∉ es := by
  intro he
  obtain ⟨r, -, b, x, hx⟩ := h.told _ he
  exact inDoubt_ne_delivery hx

/-- What an adapter reports is settled, unless the log had it pending. -/
lemma Recovers.reports (h : Recovers log g es result) (hf : Faithful id r? es)
    {reported : List TxId} (hr : ⟨.inDoubt a, .ok reported⟩ ∈ es) (hid : id ∈ reported) :
    (∃ r ∈ r?, a.id ∈ r.pending) ∨ ∃ d x, delivery a id d x ∈ es := by
  cases h with
  | unreadable e => cases List.mem_singleton.mp hr
  | @unchanged rs st st' es₁ es₂ h₁ h₂ =>
    have hrs : latest? id rs = r? := hf [] _ _ rfl rs rfl
    by_cases hn : isHandled (LogRecord.fold rs) id a.id = true
    · exact .inl (hrs ▸ isHandled_iff.mp hn)
    · have hr₂ : ⟨.inDoubt a, .ok reported⟩ ∈ es₂ := by simpa [h₁.not_inDoubt] using hr
      obtain ⟨x, hx⟩ := h₂.tells hr₂ hid (eq_false_of_ne_true hn)
      exact .inr ⟨_, x, List.mem_cons_of_mem _ (List.mem_append_right _ hx)⟩
  | @refused rs kept st es₁ e hk h₁ => simp [h₁.not_inDoubt] at hr
  | @replaced rs kept st st' es₁ es₂ hk h₁ h₂ =>
    have hrs : latest? id rs = r? := hf [] _ _ rfl rs rfl
    by_cases hn : isHandled (LogRecord.fold rs) id a.id = true
    · exact .inl (hrs ▸ isHandled_iff.mp hn)
    · have hr₂ : ⟨.inDoubt a, .ok reported⟩ ∈ es₂ := by simpa [h₁.not_inDoubt] using hr
      obtain ⟨x, hx⟩ := h₂.tells hr₂ hid (eq_false_of_ne_true hn)
      have hmem := List.mem_append_right es₁ (List.mem_cons_of_mem ⟨.replace log kept, .ok ()⟩ hx)
      exact .inr ⟨_, x, List.mem_cons_of_mem _ hmem⟩

lemma RedrivesAll.tells (h : RedrivesAll g (unresolved (LogRecord.fold rs)) st es kept st')
    (hr : latest? id rs = some r) {rid : ResourceId} (hrid : rid ∈ r.pending)
    (ha : g.get? rid = some a) : ∃ x, delivery a id r.decision x ∈ es := by
  obtain ⟨es₁, rest, st₁, st₂, h₁, hmem, -⟩ := h.of_some hr
  obtain ⟨x, hx⟩ := h₁.tells hrid ha
  rw [(LogRecord.latest?_mem hr).2] at hx
  exact ⟨x, (hmem ..).mpr hx⟩

/-- A pass that comes to its end asks every adapter and tells every pending participant that has
one. -/
lemma Recovers.settles (h : Recovers log g es (.ok st)) (hf : Faithful id r? es) :
    (∀ a ∈ g, ∃ y, ⟨.inDoubt a, y⟩ ∈ es) ∧
    ∀ r ∈ r?, ∀ rid ∈ r.pending, ∀ a, g.get? rid = some a →
      ∃ x, delivery a id r.decision x ∈ es := by
  cases h with
  | @unchanged rs st₁ st es₁ es₂ h₁ h₂ =>
    have hrs : latest? id rs = r? := hf [] _ _ rfl rs rfl
    refine ⟨fun a ha => ?_, fun r hr rid hrid a ha => ?_⟩
    · obtain ⟨y, hy⟩ := h₂.asks ha
      exact ⟨y, List.mem_cons_of_mem _ (List.mem_append_right _ hy)⟩
    · obtain ⟨x, hx⟩ := h₁.tells (hrs.trans hr) hrid ha
      exact ⟨x, List.mem_cons_of_mem _ (List.mem_append_left _ hx)⟩
  | @replaced rs kept st₁ st es₁ es₂ hk h₁ h₂ =>
    have hrs : latest? id rs = r? := hf [] _ _ rfl rs rfl
    refine ⟨fun a ha => ?_, fun r hr rid hrid a ha => ?_⟩
    · obtain ⟨y, hy⟩ := h₂.asks ha
      refine ⟨y, List.mem_cons_of_mem _ (List.mem_append_right _ ?_)⟩
      exact List.mem_cons_of_mem _ hy
    · obtain ⟨x, hx⟩ := h₁.tells (hrs.trans hr) hrid ha
      exact ⟨x, List.mem_cons_of_mem _ (List.mem_append_left _ hx)⟩

/-- The record of a transaction is dropped: the log is rewritten, and every pending participant has
an adapter that always confirms the outcome. -/
def Forgets (g : Registry) (id : TxId) (es : List Exchange) : Prop :=
  ∃ log rs kept r, ⟨.readAll log, .ok rs⟩ ∈ es ∧ latest? id rs = some r ∧
    ⟨.replace log kept, .ok ()⟩ ∈ es ∧ ∀ rid ∈ r.pending, ∃ a, g.get? rid = some a ∧
      ∀ x, delivery a id r.decision x ∈ es → Confirms r.decision x

lemma RedrivesAll.apart (h : RedrivesAll g rs st es kept st') {e : Exchange} (he : e ∈ es) :
    e.question.isAboutLog = false := by
  obtain ⟨r, -, a, x, rfl⟩ := h.told e he
  rw [question_delivery]
  exact isAboutLog_telling ..

lemma SettlesAll.apart (h : SettlesAll folded g st es st') {e : Exchange} (he : e ∈ es) :
    e.question.isAboutLog = false := by
  rcases h.told e he with ⟨a, y, rfl⟩ | ⟨a, tx, x, rfl, -⟩
  · rfl
  · rw [question_delivery]
    exact isAboutLog_telling ..

lemma delivery_of_mem_cons {e : Exchange} {d : Decision} {x : Except ResourceError Unit}
    (h : delivery a id d x ∈ e :: es) (he : e.question.isAboutLog = true) :
    delivery a id d x ∈ es := by
  refine (List.mem_cons.mp h).resolve_left ?_
  rintro rfl
  rw [question_delivery, isAboutLog_telling] at he
  cases he

/-- A pass that writes nothing drops no record. -/
lemma forgets_iff_of_writes (h : ∀ e ∈ es, ∀ q?, e.writes id q? = q?) :
    Forgets g id es ↔ durable id (some r) es = none := by
  rw [durable_of_writes h]
  constructor
  · rintro ⟨log, rs, kept, q, -, -, hreplace, -⟩
    have hnone : latest? id kept = none := h _ hreplace none
    have hsome : latest? id kept = some q := h _ hreplace (some q)
    rw [hnone] at hsome
    cases hsome
  · intro hr
    cases hr

/-- Exactly then does the log not hold it any more. -/
lemma Recovers.forgets_iff (h : Recovers log g es result) (hf : Faithful id (some r) es) :
    Forgets g id es ↔ durable id (some r) es = none := by
  cases h with
  | unreadable e =>
    apply forgets_iff_of_writes
    simp [Exchange.writes]
  | @unchanged rs st st' es₁ es₂ h₁ h₂ =>
    apply forgets_iff_of_writes
    intro e he q?
    rcases List.mem_cons.mp he with rfl | he
    · rfl
    · rcases List.mem_append.mp he with he | he
      · exact Exchange.writes_of_apart (h₁.apart he)
      · exact Exchange.writes_of_apart (h₂.apart he)
  | @refused rs kept st es₁ e hk h₁ =>
    apply forgets_iff_of_writes
    intro e' he q?
    rcases List.mem_cons.mp he with rfl | he
    · rfl
    · rcases List.mem_append.mp he with he | he
      · exact Exchange.writes_of_apart (h₁.apart he)
      · obtain rfl := List.mem_singleton.mp he
        rfl
  | @replaced rs kept st st' es₁ es₂ hk h₁ h₂ =>
    have hr : latest? id rs = some r := hf [] _ _ rfl rs rfl
    have hdurable : durable id (some r) (⟨.readAll log, .ok rs⟩ :: (es₁ ++
        ⟨.replace log kept, .ok ()⟩ :: es₂)) = latest? id kept := by
      rw [durable_cons, durable_append, durable_of_apart fun _ => h₁.apart, durable_cons,
        durable_of_apart fun _ => h₂.apart]
      rfl
    obtain ⟨es₃, rest, st₁, st₂, h₃, hmem, hkept⟩ := h₁.of_some hr
    have hrest : latest? id kept = none ↔ rest = [] := by
      rcases hkept with ⟨hrest, hnone⟩ | ⟨hrest, q, hq, -, -⟩
      · exact iff_of_true hnone hrest
      · exact iff_of_false (by simp [hq]) hrest
    have hid : r.tx = id := (LogRecord.latest?_mem hr).2
    rw [hdurable, hrest, h₃.rest_eq_nil_iff, hid]
    constructor
    · rintro ⟨log', rs', kept', q, hread, hq, -, hall⟩ rid hrid
      -- a pass reads the log only once
      have hrs : rs' = rs := by
        rcases List.mem_cons.mp hread with he | he
        · cases he
          rfl
        · rcases List.mem_append.mp he with he | he
          · cases h₁.apart he
          · rcases List.mem_cons.mp he with he | he
            · cases he
            · cases h₂.apart he
      subst hrs
      obtain rfl := Option.some.inj (hr.symm.trans hq)
      obtain ⟨a, ha, hx⟩ := hall rid hrid
      refine ⟨a, ha, fun x he => hx x ?_⟩
      exact List.mem_cons_of_mem _ (List.mem_append_left _ ((hmem ..).mpr he))
    · intro hall
      refine ⟨log, rs, kept, r, List.mem_cons_self .., hr, by simp, fun rid hrid => ?_⟩
      obtain ⟨a, ha, hx⟩ := hall rid hrid
      refine ⟨a, ha, fun x he => hx x ?_⟩
      rcases List.mem_append.mp (delivery_of_mem_cons he rfl) with he | he
      · exact (hmem ..).mp he
      · -- who was pending is not told again, whatever it reports
        rcases h₂.told _ (delivery_of_mem_cons he rfl) with ⟨b, y, hy⟩ | ⟨b, tx, y, hy, hn⟩
        · exact absurd hy.symm inDoubt_ne_delivery
        · obtain ⟨rfl, rfl, -, -⟩ := delivery_inj hy
          rw [isHandled_iff.mpr ⟨r, hr, Registry.id_of_get? ha ▸ hrid⟩] at hn
          cases hn

end Recovery

end TwoPhaseCommit
