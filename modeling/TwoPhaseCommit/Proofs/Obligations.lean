import TwoPhaseCommit.Proofs.History

/-!
# Obligations

The log obliges a pass of recovery to tell every pending participant the recorded outcome. A pass
tells each of them once for every time it is listed, and leaves in the log exactly what is still
owed; what it asks the adapters afterwards concerns other participants. A pass that cannot read or
rewrite the log leaves it as it was.
-/

namespace TwoPhaseCommit

/-! ### The records that count -/

namespace LogRecord

variable {r : LogRecord} {rs : List LogRecord}

/-- The latest record of every transaction of a log, in order of first appearance. -/
def current (rs : List LogRecord) : List LogRecord :=
  (rs.map (·.tx)).eraseDups.filterMap fun tx => latest? tx rs

lemma map_tx_upsert (r : LogRecord) (rs : List LogRecord) :
    (upsert r rs).map (·.tx) =
      if r.tx ∈ rs.map (·.tx) then rs.map (·.tx) else rs.map (·.tx) ++ [r.tx] := by
  induction rs with
  | nil => rfl
  | cons q qs ih =>
    unfold upsert
    by_cases hq : q.tx = r.tx
    · simp [hq]
    · have hmem : r.tx ∈ (q :: qs).map (·.tx) ↔ r.tx ∈ qs.map (·.tx) := by
        rw [List.map_cons, List.mem_cons, or_iff_right fun h => hq h.symm]
      rw [if_neg hq, List.map_cons, ih]
      by_cases hr : r.tx ∈ qs.map (·.tx)
      · rw [if_pos hr, if_pos (hmem.mpr hr), List.map_cons]
      · rw [if_neg hr, if_neg (mt hmem.mp hr), List.map_cons, List.cons_append]

/-- Transactions stand in the fold in order of first appearance. -/
lemma map_tx_fold (rs : List LogRecord) : (fold rs).map (·.tx) = (rs.map (·.tx)).eraseDups := by
  induction rs using List.reverseRecOn with
  | nil => rfl
  | append_singleton rs r ih =>
    rw [fold_concat, map_tx_upsert, ih, List.map_append, List.eraseDups_append, List.map_singleton]
    by_cases hr : r.tx ∈ rs.map (·.tx)
    · have hnil : [r.tx].removeAll (rs.map (·.tx)) = [] := by
        rw [List.removeAll, List.filter_eq_nil_iff]
        simpa using hr
      rw [if_pos (List.mem_eraseDups.mpr hr), hnil, List.eraseDups_nil, List.append_nil]
    · have hself : [r.tx].removeAll (rs.map (·.tx)) = [r.tx] := by
        rw [List.removeAll, List.filter_eq_self]
        simpa using hr
      rw [if_neg (mt List.mem_eraseDups.mp hr), hself]
      rfl

/-- The fold keeps the latest record of every transaction, in order of first appearance. -/
lemma fold_eq_current (rs : List LogRecord) : fold rs = current rs := by
  have hall : ∀ qs : List LogRecord, (∀ r ∈ qs, latest? r.tx rs = some r) →
      (qs.map (·.tx)).filterMap (fun tx => latest? tx rs) = qs := by
    intro qs hqs
    induction qs with
    | nil => rfl
    | cons q qs ih =>
      rw [List.forall_mem_cons] at hqs
      rw [List.map_cons, List.filterMap_cons, hqs.1, ih hqs.2]
  rw [current, ← map_tx_fold]
  exact (hall _ fun r hr => latest?_of_mem_fold hr).symm

end LogRecord

/-! ### What a log holds -/

/-- The records that a log holds after an exchange: what fails leaves it as it was. -/
def Exchange.stores (rs : List LogRecord) : Exchange → List LogRecord
  | ⟨.append _ r, .ok ()⟩ => rs ++ [r]
  | ⟨.replace _ qs, .ok ()⟩ => qs
  | _ => rs

/-- The records that a log holds after some exchanges. -/
def stored (rs : List LogRecord) (es : List Exchange) : List LogRecord :=
  es.foldl Exchange.stores rs

section Stored

variable {rs qs : List LogRecord} {e : Exchange} {es es₁ es₂ : List Exchange}

lemma stored_cons (rs : List LogRecord) (e : Exchange) (es : List Exchange) :
    stored rs (e :: es) = stored (e.stores rs) es := rfl

lemma stored_append (rs : List LogRecord) (es₁ es₂ : List Exchange) :
    stored rs (es₁ ++ es₂) = stored (stored rs es₁) es₂ :=
  List.foldl_append

lemma Exchange.stores_of_apart (h : e.question.isAboutLog = false) : e.stores rs = rs := by
  obtain ⟨q, a⟩ := e
  cases q with
  | append l q => cases h
  | replace l qs => cases h
  | _ => rfl

/-- What is not about the log leaves it as it was. -/
lemma stored_of_apart (h : ∀ e ∈ es, e.question.isAboutLog = false) : stored rs es = rs := by
  induction es with
  | nil => rfl
  | cons e es ih =>
    rw [List.forall_mem_cons] at h
    rw [stored_cons, Exchange.stores_of_apart h.1, ih h.2]

/-- What was read is held still unless other records were written. -/
lemma stored_unchanged {log : LogRef} (h₁ : ∀ e ∈ es₁, e.question.isAboutLog = false)
    (h₂ : ∀ e ∈ es₂, e.question.isAboutLog = false) :
    stored rs (⟨.readAll log, .ok qs⟩ :: (es₁ ++ es₂)) = rs := by
  rw [stored_cons, stored_append, stored_of_apart h₁, stored_of_apart h₂]
  rfl

lemma stored_replaced {log : LogRef} {kept : List LogRecord}
    (h₁ : ∀ e ∈ es₁, e.question.isAboutLog = false)
    (h₂ : ∀ e ∈ es₂, e.question.isAboutLog = false) :
    stored rs (⟨.readAll log, .ok qs⟩ :: (es₁ ++ ⟨.replace log kept, .ok ()⟩ :: es₂)) = kept := by
  rw [stored_cons, stored_append, stored_of_apart h₁, stored_cons, stored_of_apart h₂]
  rfl

end Stored

namespace Recovery

variable {g : Registry} {r : LogRecord} {rs kept folded : List LogRecord}
  {ids rest : List ResourceId} {st st' : RecoveryStats} {es : List Exchange} {log : LogRef}
  {result : Except StorageError RecoveryStats}

/-! ### Attempts -/

/-- What is done about one occurrence of a pending participant: its adapter, if it has one, is told
the outcome and answers. -/
structure Attempt where
  id : ResourceId
  call : Option (AdapterKey × Except ResourceError Unit)

namespace Attempt

/-- The adapter that is called is the one that is registered. -/
def Proper (g : Registry) (t : Attempt) : Prop := t.call.map (·.1) = g.get? t.id

/-- What is said. -/
def exchange? (r : LogRecord) (t : Attempt) : Option Exchange :=
  t.call.map fun (a, x) => delivery a r.tx r.decision x

/-- Whether the outcome was delivered. -/
def delivered (r : LogRecord) (t : Attempt) : Bool :=
  t.call.any fun (_, x) => decide (Confirms r.decision x)

end Attempt

/-- The participants that are still owed the outcome, in order and as often as they are listed. -/
def undelivered (r : LogRecord) (ts : List Attempt) : List ResourceId :=
  (ts.filter (!·.delivered r)).map (·.id)

/-- The record that is kept: none if all is delivered, and the same if nothing is. -/
def reduced (r : LogRecord) (ts : List Attempt) (now : UInt64) : Option LogRecord :=
  if ts.all (·.delivered r) then none
  else if ts.any (·.delivered r) then some (r.withPending (undelivered r ts) now)
  else some r

lemma undelivered_eq_nil_iff (r : LogRecord) (ts : List Attempt) :
    undelivered r ts = [] ↔ ts.all (·.delivered r) = true := by
  simp [undelivered]

/-- All participants are left exactly if nothing was delivered. -/
lemma undelivered_eq_iff (r : LogRecord) (ts : List Attempt) :
    undelivered r ts = ts.map (·.id) ↔ ts.any (·.delivered r) = false := by
  constructor
  · intro h
    have hlength : (ts.filter (!·.delivered r)).length = ts.length := by
      simpa [undelivered] using congrArg List.length h
    rw [List.length_filter_eq_length_iff] at hlength
    simpa using hlength
  · intro h
    rw [undelivered, List.filter_eq_self.mpr]
    simpa using h

lemma reduced_eq (r : LogRecord) {ts : List Attempt} (h : ts.map (·.id) = r.pending) (now : UInt64) :
    reduced r ts now =
      if undelivered r ts = [] then none else some (remaining r (undelivered r ts) now) := by
  unfold reduced remaining
  by_cases hall : ts.all (·.delivered r) = true
  · rw [if_pos hall, if_pos ((undelivered_eq_nil_iff r ts).mpr hall)]
  · rw [if_neg hall, if_neg (mt (undelivered_eq_nil_iff r ts).mp hall), ← h]
    cases hany : ts.any (·.delivered r) with
    | true =>
      have hne : undelivered r ts ≠ ts.map (·.id) := by
        rw [Ne, undelivered_eq_iff, hany]
        simp
      rw [if_pos rfl, if_neg hne]
    | false => rw [if_neg (by simp), if_pos ((undelivered_eq_iff r ts).mpr hany)]

/-- What is done about the pending participants of one record. -/
lemma Redrives.attempts (h : Redrives g r ids st es rest st') :
    ∃ ts : List Attempt, ts.map (·.id) = ids ∧ (∀ t ∈ ts, t.Proper g) ∧
      es = ts.filterMap (·.exchange? r) ∧ rest = undelivered r ts := by
  induction h with
  | nil => exact ⟨[], rfl, by simp, rfl, rfl⟩
  | @unknown id _ _ _ _ _ hg _ ih =>
    obtain ⟨ts, rfl, hts, rfl, rfl⟩ := ih
    exact ⟨⟨id, none⟩ :: ts, rfl, List.forall_mem_cons.mpr ⟨hg.symm, hts⟩, rfl, rfl⟩
  | @confirmed id _ _ _ _ _ a x hg hx _ ih =>
    obtain ⟨ts, rfl, hts, rfl, rfl⟩ := ih
    refine ⟨⟨id, some (a, x)⟩ :: ts, rfl, List.forall_mem_cons.mpr ⟨hg.symm, hts⟩, rfl, ?_⟩
    simp [undelivered, Attempt.delivered, hx]
  | @failed id _ _ _ _ _ a e hg he _ ih =>
    obtain ⟨ts, rfl, hts, rfl, rfl⟩ := ih
    refine ⟨⟨id, some (a, .error e)⟩ :: ts, rfl, List.forall_mem_cons.mpr ⟨hg.symm, hts⟩, rfl, ?_⟩
    simp [undelivered, Attempt.delivered, Confirms, he]

/-- The records `rs` are attended to one after the other, and what is kept of them follows. -/
structure Accounts (g : Registry) (rs : List LogRecord) (told : LogRecord → List Attempt)
    (time : LogRecord → UInt64) (es : List Exchange) (kept : List LogRecord) : Prop where
  /-- Every occurrence of a pending participant is attended to, by the adapter that is registered.
  -/
  attended : ∀ r ∈ rs, (told r).map (·.id) = r.pending ∧ ∀ t ∈ told r, t.Proper g
  said : es = rs.flatMap fun r => (told r).filterMap (·.exchange? r)
  remains : kept = rs.filterMap fun r => reduced r (told r) (time r)

/-- What is done about one record goes with what is done about the others. -/
lemma Accounts.cons {told : LogRecord → List Attempt} {time : LogRecord → UInt64}
    {ts : List Attempt} (h : Accounts g rs told time es kept) (hr : r ∉ rs)
    (hids : ts.map (·.id) = r.pending) (hts : ∀ t ∈ ts, t.Proper g) (now : UInt64) :
    Accounts g (r :: rs) (Function.update told r ts) (Function.update time r now)
      (ts.filterMap (·.exchange? r) ++ es) ((reduced r ts now).toList ++ kept) := by
  have hother : ∀ {q}, q ∈ rs → q ≠ r := fun hq hqr => hr (hqr ▸ hq)
  refine ⟨List.forall_mem_cons.mpr ⟨?_, fun q hq => ?_⟩, ?_, ?_⟩
  · rw [Function.update_self]
    exact ⟨hids, hts⟩
  · rw [Function.update_of_ne (hother hq)]
    exact h.attended q hq
  · rw [List.flatMap_cons, Function.update_self, h.said]
    congr 1
    exact List.flatMap_congr fun q hq => by rw [Function.update_of_ne (hother hq)]
  · -- the records differ, so that what is told of one changes nothing for the others
    have htail : kept = rs.filterMap fun q =>
        reduced q (Function.update told r ts q) (Function.update time r now q) := by
      rw [h.remains]
      exact List.filterMap_congr fun q hq => by
        rw [Function.update_of_ne (hother hq), Function.update_of_ne (hother hq)]
    rw [List.filterMap_cons, Function.update_self, Function.update_self, ← htail]
    cases reduced r ts now <;> rfl

/-- What is done about all records, resolved ones included. -/
lemma RedrivesAll.accounts (h : RedrivesAll g (unresolved rs) st es kept st') (hn : rs.Nodup) :
    ∃ told time, Accounts g rs told time es kept := by
  induction rs generalizing st es kept with
  | nil =>
    cases h
    exact ⟨fun _ => [], fun _ => 0, by simp, rfl, rfl⟩
  | cons r rs ih =>
    rw [List.nodup_cons] at hn
    by_cases hp : r.pending = []
    · -- of a resolved record nobody is left to be told
      have hskip : unresolved (r :: rs) = unresolved rs := by
        simp [unresolved, LogRecord.isResolved, hp]
      rw [hskip] at h
      obtain ⟨told, time, hrest⟩ := ih h hn.2
      exact ⟨_, _, hrest.cons hn.1 (List.map_nil.trans hp.symm) (by simp) 0⟩
    · have hkeep : unresolved (r :: rs) = r :: unresolved rs := by
        simp [unresolved, LogRecord.isResolved, hp]
      rw [hkeep] at h
      cases h with
      | resolved h h' =>
        obtain ⟨ts, hids, hts, rfl, hnil⟩ := h.attempts
        obtain ⟨told, time, hrest⟩ := ih h' hn.2
        have haccounts := hrest.cons hn.1 hids hts 0
        rw [reduced_eq r hids, if_pos hnil.symm] at haccounts
        exact ⟨_, _, haccounts⟩
      | kept now hr h h' =>
        obtain ⟨ts, hids, hts, rfl, rfl⟩ := h.attempts
        obtain ⟨told, time, hrest⟩ := ih h' hn.2
        have haccounts := hrest.cons hn.1 hids hts now
        rw [reduced_eq r hids, if_neg hr] at haccounts
        exact ⟨_, _, haccounts⟩

/-! ### A whole pass -/

lemma SettlesAll.spares (h : SettlesAll (LogRecord.fold rs) g st es st') :
    ∀ e ∈ es, ∀ r ∈ LogRecord.current rs, ∀ a, e.question.told? r.tx = some a → a.id ∉ r.pending := by
  intro e he r hr a ha hpending
  rw [← LogRecord.fold_eq_current] at hr
  rcases h.told e he with ⟨b, y, rfl⟩ | ⟨b, tx, x, rfl, hn⟩
  · cases ha
  · obtain ⟨rfl, rfl⟩ : tx = r.tx ∧ b = a := by
      rw [question_delivery] at ha
      generalize outcome (LogRecord.fold rs) tx = d at ha
      cases d <;> simpa [telling, Question.told?] using ha
    rw [isHandled_iff.mpr ⟨r, LogRecord.latest?_of_mem_fold hr, hpending⟩] at hn
    cases hn

/-- Three transactions, the first with two records: only the later one counts, which names one
participant twice and one that has no adapter. -/
def scattered : List LogRecord :=
  [⟨.mint 0 0, .committed, [⟨"a"⟩, ⟨"b"⟩], 1⟩, ⟨.mint 0 1, .rolledBack, [⟨"a"⟩], 2⟩,
    ⟨.mint 0 0, .committed, [⟨"a"⟩, ⟨"c"⟩, ⟨"a"⟩, ⟨"b"⟩], 3⟩, ⟨.mint 0 2, .committed, [], 4⟩]

/-- One adapter commits, and all else fails. It then reports what it was told, and more. -/
def answersScattered : (q : Question) → q.Answer
  | .readAll _ => .ok scattered
  | .commit k _ _ => if k.ref = 0 then .ok () else .error (.unavailable "later")
  | .rollback .. => .error (.unavailable "later")
  | .inDoubt _ => .ok [.mint 0 0, .mint 0 2]
  | q => Dialogue.someAnswer q

def adapters : Registry := [{ ref := 0, id := ⟨"a"⟩ }, { ref := 1, id := ⟨"b"⟩ }]

def scatteredPass : List Exchange × Except StorageError RecoveryStats :=
  (recover 0 adapters { clock := 7000 }).play answersScattered

lemma scatteredPass_says : (recover 0 adapters).Says scatteredPass.1 scatteredPass.2 := by
  obtain ⟨s, hs⟩ := Dialogue.ends_play answersScattered (recover 0 adapters { clock := 7000 })
  exact ⟨_, _, s, hs⟩

end Recovery

end TwoPhaseCommit
