import TwoPhaseCommit.Proofs.Statistics

/-!
# A pass after a pass

If adapters answer as they did before, a second pass finds nothing to do. What the first pass left
in the log are the records that the second one keeps, each unchanged, for it leads to the same
attempts with the same success.
-/

namespace TwoPhaseCommit

namespace LogRecord

variable {r : LogRecord} {rs : List LogRecord}

lemma upsert_of_not_mem (h : r.tx ∉ rs.map (·.tx)) : upsert r rs = rs ++ [r] := by
  induction rs with
  | nil => rfl
  | cons q qs ih =>
    rw [List.map_cons, List.mem_cons, not_or] at h
    rw [upsert, if_neg (Ne.symm h.1), ih h.2, List.cons_append]

/-- Records of different transactions are all latest records. -/
lemma fold_of_nodup (h : (rs.map (·.tx)).Nodup) : fold rs = rs := by
  induction rs using List.reverseRecOn with
  | nil => rfl
  | append_singleton rs r ih =>
    rw [List.map_append, List.map_singleton, List.nodup_append] at h
    obtain ⟨hrs, -, hr⟩ := h
    rw [fold_concat, ih hrs, upsert_of_not_mem]
    exact fun hmem => hr _ hmem _ (List.mem_singleton_self _) rfl

end LogRecord

/-! ### Answers that do not change -/

/-- An adapter answers what it always answers if it is told an outcome. -/
def Exchange.IsSteady (reply : AdapterKey → TxId → Decision → Except ResourceError Unit) :
    Exchange → Prop
  | ⟨.commit a tx _, x⟩ => x = reply a tx .committed
  | ⟨.rollback a tx, x⟩ => x = reply a tx .rolledBack
  | _ => True

instance (reply : AdapterKey → TxId → Decision → Except ResourceError Unit) (e : Exchange) :
    Decidable (e.IsSteady reply) := by
  unfold Exchange.IsSteady
  split <;> infer_instance

/-- An adapter has confirmed the outcome that it was told. -/
def Exchange.isAcknowledged : Exchange → Bool
  | ⟨.commit .., x⟩ => decide (Recovery.Confirms .committed x)
  | ⟨.rollback .., x⟩ => decide (Recovery.Confirms .rolledBack x)
  | _ => false

/-- Whether an adapter is asked what waits for its outcome. -/
def Question.isForReport : Question → Bool
  | inDoubt _ => true
  | _ => false

/-- Reading leaves a log as it was. -/
lemma stored_of_reads {rs : List LogRecord} {es : List Exchange} {log : LogRef}
    (h : ∀ e ∈ es, e.question.isAboutLog = true → e.question = .readAll log) :
    stored rs es = rs := by
  induction es with
  | nil => rfl
  | cons e es ih =>
    rw [List.forall_mem_cons] at h
    have he : e.stores rs = rs := by
      cases hlog : e.question.isAboutLog with
      | false => exact Exchange.stores_of_apart hlog
      | true =>
        obtain ⟨q, x⟩ := e
        obtain rfl : q = .readAll log := h.1 hlog
        rfl
    rw [stored_cons, he, ih h.2]

namespace Recovery

/-- The calls that a pass makes before it asks adapters what waits for its outcome. -/
def logCalls (es : List Exchange) : List Exchange :=
  (es.takeWhile (!·.question.isForReport)).filter (!·.question.isAboutLog)

variable {g : Registry} {r r' : LogRecord} {rs rs' kept kept' folded : List LogRecord}
  {ids rest rest' : List ResourceId} {a : AdapterKey} {tx : TxId} {d : Decision}
  {x : Except ResourceError Unit} {st st' st₁ st₁' : RecoveryStats} {es es₁ es₂ : List Exchange}
  {log : LogRef} {result : Except StorageError RecoveryStats}
  {reply : AdapterKey → TxId → Decision → Except ResourceError Unit}

lemma isSteady_delivery : (delivery a tx d x).IsSteady reply ↔ x = reply a tx d := by
  cases d <;> exact Iff.rfl

lemma isAcknowledged_delivery : (delivery a tx d x).isAcknowledged = decide (Confirms d x) := by
  cases d <;> rfl

/-! ### One record -/

/-- Told again are those who did not confirm, and none of them confirms. -/
lemma Redrives.again (h : Redrives g r ids st es₁ rest st')
    (h' : Redrives g r' rest st₁ es₂ rest' st₁') (htx : r'.tx = r.tx)
    (hd : r'.decision = r.decision) (hs : ∀ e ∈ es₁, e.IsSteady reply)
    (hs' : ∀ e ∈ es₂, e.IsSteady reply) :
    rest' = rest ∧ es₂ = es₁.filter (!·.isAcknowledged) ∧
      st₁'.unknownResources + st.unknownResources =
        st₁.unknownResources + st'.unknownResources := by
  induction h generalizing st₁ es₂ rest' with
  | nil =>
    cases h'
    exact ⟨rfl, rfl, rfl⟩
  | unknown hg _ ih =>
    cases h' with
    | unknown _ h' =>
      obtain ⟨rfl, rfl, hn⟩ := ih h' hs hs'
      refine ⟨rfl, rfl, ?_⟩
      dsimp only at hn
      omega
    | confirmed hg' => simp [hg] at hg'
    | failed hg' => simp [hg] at hg'
  | confirmed hg hx _ ih =>
    rw [List.forall_mem_cons] at hs
    obtain ⟨rfl, rfl, hn⟩ := ih h' hs.2 hs'
    refine ⟨rfl, ?_, hn⟩
    rw [List.filter_cons_of_neg (by simp [isAcknowledged_delivery, hx])]
  | @failed _ _ _ _ _ _ a e hg he _ ih =>
    rw [List.forall_mem_cons, isSteady_delivery] at hs
    -- told the same, a steady adapter fails in the same way
    have hanswer : ∀ {y}, (delivery a r'.tx r'.decision y).IsSteady reply → y = .error e := by
      intro y hy
      rw [isSteady_delivery, htx, hd, ← hs.1] at hy
      exact hy
    cases h' with
    | unknown hg' => simp [hg] at hg'
    | confirmed hg' hy h' =>
      obtain rfl := Option.some.inj (hg.symm.trans hg')
      rw [List.forall_mem_cons] at hs'
      rw [hanswer hs'.1, hd] at hy
      simp [Confirms, he] at hy
    | failed hg' _ h' =>
      obtain rfl := Option.some.inj (hg.symm.trans hg')
      rw [List.forall_mem_cons] at hs'
      obtain ⟨rfl, rfl, hn⟩ := ih h' hs.2 hs'.2
      refine ⟨rfl, ?_, hn⟩
      rw [List.filter_cons_of_pos (by simp [isAcknowledged_delivery, Confirms, he]),
        hanswer hs'.1, htx, hd]

/-! ### All records -/

/-- The records that a pass keeps are kept by the next one as they are. -/
lemma RedrivesAll.again (h : RedrivesAll g rs st es₁ kept st')
    (h' : RedrivesAll g kept st₁ es₂ kept' st₁') (hs : ∀ e ∈ es₁, e.IsSteady reply)
    (hs' : ∀ e ∈ es₂, e.IsSteady reply) :
    kept' = kept ∧ es₂ = es₁.filter (!·.isAcknowledged) ∧
      st₁'.unknownResources + st.unknownResources =
        st₁.unknownResources + st'.unknownResources := by
  induction h generalizing st₁ es₂ kept' with
  | nil =>
    cases h'
    exact ⟨rfl, rfl, rfl⟩
  | @resolved r _ _ _ _ _ _ _ h _ ih =>
    rw [List.forall_mem_append] at hs
    have hnobody : Redrives g r [] st₁ [] [] st₁ := .nil
    obtain ⟨-, hnil, hn⟩ := h.again hnobody rfl rfl hs.1 (by simp)
    obtain ⟨rfl, rfl, hn'⟩ := ih h' hs.2 hs'
    refine ⟨rfl, ?_, ?_⟩
    · rw [List.filter_append, ← hnil, List.nil_append]
    · dsimp only at hn'
      omega
  | kept now hr h _ ih =>
    rw [List.forall_mem_append] at hs
    cases h' with
    | resolved h₁ =>
      rw [pending_remaining] at h₁
      rw [List.forall_mem_append] at hs'
      exact absurd (h.again h₁ (tx_remaining ..) (decision_remaining ..) hs.1 hs'.1).1.symm hr
    | kept now' hr' h₁ h₂ =>
      rw [List.forall_mem_append] at hs'
      rw [pending_remaining] at h₁
      obtain ⟨rfl, rfl, hn⟩ := h.again h₁ (tx_remaining ..) (decision_remaining ..) hs.1 hs'.1
      obtain ⟨rfl, rfl, hn'⟩ := ih h₂ hs.2 hs'.2
      refine ⟨?_, (List.filter_append ..).symm, ?_⟩
      · rw [remaining, if_pos (pending_remaining ..).symm]
      · dsimp only at hn'
        omega

/-- Every record that a pass keeps is one that the next pass attends to. -/
lemma RedrivesAll.unresolved_kept
    (h : RedrivesAll g (unresolved (LogRecord.fold rs)) st es kept st') :
    unresolved (LogRecord.fold kept) = kept := by
  have hnodup : ((unresolved (LogRecord.fold rs)).map (·.tx)).Nodup :=
    (List.filter_sublist.map _).nodup (LogRecord.nodup_fold rs)
  have hpending : ∀ r ∈ kept, r.pending ≠ [] := by
    clear hnodup
    generalize unresolved (LogRecord.fold rs) = qs at h
    induction h with
    | nil => simp
    | resolved _ _ ih => exact ih
    | kept _ hr _ _ ih =>
      refine List.forall_mem_cons.mpr ⟨?_, ih⟩
      rw [pending_remaining]
      exact hr
  rw [LogRecord.fold_of_nodup (h.tx_kept.nodup hnodup), unresolved, List.filter_eq_self]
  intro r hr
  simp [LogRecord.isResolved, hpending r hr]

/-! ### Whole passes -/

lemma SettlesAll.takeWhile (h : SettlesAll folded g st es st') :
    es.takeWhile (!·.question.isForReport) = [] := by
  cases h <;> rfl

lemma isForReport_telling (a : AdapterKey) (tx : TxId) (d : Decision) :
    (telling a tx d).isForReport = false := by
  cases d <;> rfl

lemma RedrivesAll.takeWhile_append (h : RedrivesAll g rs st es kept st') (es' : List Exchange) :
    (es ++ es').takeWhile (!·.question.isForReport) =
      es ++ es'.takeWhile (!·.question.isForReport) := by
  apply List.takeWhile_append_of_pos
  intro e he
  obtain ⟨r, -, a, x, rfl⟩ := h.told e he
  rw [question_delivery, isForReport_telling]
  rfl

lemma RedrivesAll.filter_apart (h : RedrivesAll g rs st es kept st') :
    es.filter (!·.question.isAboutLog) = es := by
  rw [List.filter_eq_self]
  intro e he
  rw [h.apart he]
  rfl

lemma RedrivesAll.logCalls_append (h : RedrivesAll g rs st es kept st') {e : Exchange}
    (he : e.question.isForReport = false) (he' : e.question.isAboutLog = true)
    (hes : (es₂.takeWhile (!·.question.isForReport)).filter (!·.question.isAboutLog) = []) :
    logCalls (e :: (es ++ es₂)) = es := by
  rw [logCalls, List.takeWhile_cons_of_pos (by simp [he]), h.takeWhile_append,
    List.filter_cons_of_neg (by simp [he']), List.filter_append, h.filter_apart, hes,
    List.append_nil]

/-- A pass that comes to its end attends to the records and leaves what it keeps in the log. -/
lemma Recovers.leaves (h : Recovers log g es (.ok st'))
    (hread : ∀ e ∈ es, ∀ qs ∈ e.read?, qs = rs) :
    ∃ st₁, RedrivesAll g (unresolved (LogRecord.fold rs)) (counted rs) (logCalls es) (stored rs es)
        st₁ ∧
      st'.unknownResources = st₁.unknownResources ∧ st'.inDoubt = st₁.inDoubt := by
  cases h with
  | @unchanged qs st₁ st es₁ es₂ h₁ h₂ =>
    obtain rfl := hread _ (List.mem_cons_self ..) _ rfl
    rw [h₁.logCalls_append rfl rfl (by rw [h₂.takeWhile]; rfl),
      stored_unchanged (fun _ => h₁.apart) fun _ => h₂.apart]
    refine ⟨st₁, h₁, ?_⟩
    rw [h₂.stats]
    exact ⟨rfl, rfl⟩
  | @replaced qs kept st₁ st es₁ es₂ hk h₁ h₂ =>
    obtain rfl := hread _ (List.mem_cons_self ..) _ rfl
    have hrest : ((⟨.replace log kept, .ok ()⟩ :: es₂ : List Exchange).takeWhile
        (!·.question.isForReport)).filter (!·.question.isAboutLog) = [] := by
      rw [List.takeWhile_cons_of_pos rfl, h₂.takeWhile]
      rfl
    rw [h₁.logCalls_append rfl rfl hrest,
      stored_replaced (fun _ => h₁.apart) fun _ => h₂.apart]
    refine ⟨st₁, h₁, ?_⟩
    rw [h₂.stats]
    exact ⟨rfl, rfl⟩

/-- What a second pass counts, and whom it calls again. -/
structure Repeats (es₁ : List Exchange) (st₁ : RecoveryStats) (es₂ : List Exchange)
    (st₂ : RecoveryStats) : Prop where
  purged : st₂.purged = 0
  resolved : st₂.resolved = 0
  inDoubt : st₂.inDoubt = st₁.inDoubt
  unknownResources : st₂.unknownResources = st₁.unknownResources
  /-- Of the calls about the records of the log, those are repeated that were not acknowledged. -/
  calls : logCalls es₂ = (logCalls es₁).filter (!·.isAcknowledged)

lemma mem_of_mem_logCalls {e : Exchange} (he : e ∈ logCalls es) : e ∈ es :=
  (List.takeWhile_sublist _).subset (List.mem_of_mem_filter he)

/-- A pass over what a pass has left does not write to the log. -/
lemma Recovers.repeats (h : Recovers log g es₁ (.ok st₁)) (h' : Recovers log g es₂ result)
    (hread : ∀ e ∈ es₁, ∀ qs ∈ e.read?, qs = rs)
    (hread' : ∀ e ∈ es₂, ∀ qs ∈ e.read?, qs = stored rs es₁)
    (hs : ∀ e ∈ es₁ ++ es₂, e.IsSteady reply) :
    (∀ e ∈ es₂, e.question.isAboutLog = true → e.question = .readAll log) ∧
    (∀ e, result = .error e → es₂ = [⟨.readAll log, .error e⟩]) ∧
    ∀ st₂, result = .ok st₂ → Repeats es₁ st₁ es₂ st₂ := by
  rw [List.forall_mem_append] at hs
  obtain ⟨st, hfirst, hunknown, hdoubt⟩ := h.leaves hread
  have hcalls : ∀ e ∈ logCalls es₁, e.IsSteady reply := fun e he => hs.1 e (mem_of_mem_logCalls he)
  generalize hkept : stored rs es₁ = kept at *
  -- the records that are left are all unresolved, and the second pass changes none of them
  have hagain : ∀ {es kept' st'}, (∀ e ∈ es, e.IsSteady reply) →
      RedrivesAll g (unresolved (LogRecord.fold kept)) (counted kept) es kept' st' →
      kept' = kept ∧ es = (logCalls es₁).filter (!·.isAcknowledged) ∧
        st'.unknownResources = st.unknownResources := by
    intro es kept' st' hes h
    rw [hfirst.unresolved_kept] at h
    obtain ⟨hk, hes, hn⟩ := hfirst.again h hcalls hes
    exact ⟨hk, hes, by simpa [counted] using hn⟩
  cases h' with
  | unreadable e =>
    refine ⟨?_, ?_, ?_⟩
    · simp
    · rintro _ ⟨⟩
      rfl
    · rintro _ ⟨⟩
  | @unchanged qs st₂ st₂' es es' h₁ h₂ =>
    obtain rfl := hread' _ (List.mem_cons_self ..) _ rfl
    rw [List.forall_mem_cons, List.forall_mem_append] at hs
    refine ⟨?_, ?_, ?_⟩
    · intro e he hlog
      rw [List.mem_cons, List.mem_append] at he
      rcases he with rfl | he | he
      · rfl
      · simp [h₁.apart he] at hlog
      · simp [h₂.apart he] at hlog
    · rintro _ ⟨⟩
    · rintro _ ⟨⟩
      obtain ⟨-, hes, hn⟩ := hagain hs.2.2.1 h₁
      obtain ⟨hresolved, hdoubt₂⟩ := h₁.records
      have hdoubt₁ := hfirst.records.2
      rw [hfirst.unresolved_kept] at hresolved
      rw [h₂.stats]
      simp only [counted] at hresolved hdoubt₁ hdoubt₂
      refine ⟨Nat.sub_self _, ?_, ?_, hn.trans hunknown.symm, ?_⟩
      · dsimp only
        omega
      · dsimp only
        omega
      · rw [h₁.logCalls_append rfl rfl (by rw [h₂.takeWhile]; rfl), hes]
  | refused e hk h₁ =>
    -- it keeps what it has read, and so does not write to the log
    obtain rfl := hread' _ (List.mem_cons_self ..) _ rfl
    rw [List.forall_mem_cons, List.forall_mem_append] at hs
    exact absurd (hagain hs.2.2.1 h₁).1 hk
  | replaced hk h₁ h₂ =>
    obtain rfl := hread' _ (List.mem_cons_self ..) _ rfl
    rw [List.forall_mem_cons, List.forall_mem_append] at hs
    exact absurd (hagain hs.2.2.1 h₁).1 hk

/-- If adapters answer as before, a pass right after one that came to its end only reads the log,
and unless it cannot read it, it resolves nothing, drops nothing, counts the same transactions in
doubt and repeats the calls that were not acknowledged. -/
theorem recover_repeats (h : (recover log g).Says es₁ (.ok st₁))
    (h' : (recover log g).Says es₂ result)
    (hread : ∀ e ∈ es₁, ∀ qs ∈ e.read?, qs = rs)
    (hread' : ∀ e ∈ es₂, ∀ qs ∈ e.read?, qs = stored rs es₁)
    (hs : ∀ e ∈ es₁ ++ es₂, e.IsSteady reply) :
    stored (stored rs es₁) es₂ = stored rs es₁ ∧
    (∀ e ∈ es₂, e.question.isAboutLog = true → e.question = .readAll log) ∧
    (∀ e, result = .error e → es₂ = [⟨.readAll log, .error e⟩]) ∧
    ∀ st₂, result = .ok st₂ → Repeats es₁ st₁ es₂ st₂ := by
  obtain ⟨hlog, hrest⟩ := (says_recover h).repeats (says_recover h') hread hread' hs
  exact ⟨stored_of_reads hlog, hlog, hrest⟩

/-! ### The scattered log again -/

/-- The answers of adapters to what the log records, as they are in every pass. -/
def steadyReply (k : AdapterKey) (_ : TxId) : Decision → Except ResourceError Unit
  | .committed => if k.ref = 0 then .ok () else .error (.unavailable "later")
  | .rolledBack => .error (.unavailable "later")

def answersAgain : (q : Question) → q.Answer
  | .readAll _ => .ok (stored scattered scatteredPass.1)
  | q => answersScattered q

def secondPass : List Exchange × Except StorageError RecoveryStats :=
  (recover 0 adapters { clock := 9000 }).play answersAgain

lemma secondPass_says : (recover 0 adapters).Says secondPass.1 secondPass.2 := by
  obtain ⟨s, hs⟩ := Dialogue.ends_play answersAgain (recover 0 adapters { clock := 9000 })
  exact ⟨_, _, s, hs⟩

/-- What it counts: nothing could be delivered that was owed, and one transaction that is reported
can be settled. -/
def secondStats : RecoveryStats :=
  { recordsScanned := 2, transactions := 2, redriven := 1, resolved := 0, inDoubt := 2,
    unknownResources := 1, purged := 0, reportedInDoubt := 3, presumedAborted := 0,
    reportedUnresolved := 2 }

/-- Of the four calls about the records of the log two were acknowledged, and two are repeated. -/
theorem recover_repeats_scattered :
    Repeats scatteredPass.1 scatteredStats secondPass.1 secondStats ∧
    (logCalls scatteredPass.1).length = 4 ∧ (logCalls secondPass.1).length = 2 := by
  have hread : ∀ e ∈ scatteredPass.1, ∀ qs ∈ e.read?, qs = scattered := by decide +kernel
  have hsteady : ∀ e ∈ scatteredPass.1 ++ secondPass.1, e.IsSteady steadyReply := by decide +kernel
  have hrepeats :=
    recover_repeats scatteredPass_ok secondPass_says hread (by decide +kernel) hsteady
  exact ⟨hrepeats.2.2.2 _ (by decide +kernel), by decide +kernel, by decide +kernel⟩

end Recovery

end TwoPhaseCommit
