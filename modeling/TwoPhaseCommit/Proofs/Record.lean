import Mathlib.Tactic.Common
import Mathlib.Data.List.Induction
import Mathlib.Data.List.Nodup
import TwoPhaseCommit.Record

/-!
# The latest records

Of each transaction the fold of a log keeps the record that was written last. All that follows about
logs is stated with `LogRecord.latest?`, transaction by transaction.
-/

namespace TwoPhaseCommit

namespace LogRecord

variable {tx : TxId} {r : LogRecord} {rs : List LogRecord}

/-- The record of a transaction that counts. -/
def latest? (tx : TxId) (rs : List LogRecord) : Option LogRecord :=
  (rs.filter (·.tx == tx)).getLast?

lemma latest?_concat (rs : List LogRecord) (r : LogRecord) :
    latest? tx (rs ++ [r]) = if r.tx = tx then some r else latest? tx rs := by
  unfold latest?
  rw [List.filter_append]
  split
  next h => simp [h]
  next h => simp [h]

/-- Records of other transactions do not count. -/
lemma latest?_append_of_ne {qs : List LogRecord} (h : ∀ r ∈ qs, r.tx ≠ tx) :
    latest? tx (rs ++ qs) = latest? tx rs := by
  have hq : qs.filter (·.tx == tx) = [] := by
    rw [List.filter_eq_nil_iff]
    intro r hr
    simp [h r hr]
  rw [latest?, List.filter_append, hq, List.append_nil, latest?]

lemma latest?_eq_none_iff : latest? tx rs = none ↔ ∀ r ∈ rs, r.tx ≠ tx := by
  rw [latest?, List.getLast?_eq_none_iff, List.filter_eq_nil_iff]
  simp

lemma latest?_mem (h : latest? tx rs = some r) : r ∈ rs ∧ r.tx = tx := by
  have hr : r ∈ rs.filter (·.tx == tx) := List.mem_of_getLast? h
  rw [List.mem_filter, beq_iff_eq] at hr
  exact hr

lemma find?_upsert (r : LogRecord) (rs : List LogRecord) :
    (upsert r rs).find? (·.tx == tx) = if r.tx = tx then some r else rs.find? (·.tx == tx) := by
  induction rs with
  | nil =>
    unfold upsert
    split
    next h => simp [h]
    next h => simp [h]
  | cons q qs ih =>
    unfold upsert
    by_cases hq : q.tx = r.tx
    · rw [if_pos hq]
      by_cases h : r.tx = tx
      · simp [h]
      · simp [h, hq]
    · rw [if_neg hq]
      by_cases h : q.tx = tx
      · have hr : r.tx ≠ tx := fun hr => hq (h.trans hr.symm)
        simp [h, hr]
      · simp [h, ih]

/-- What the fold keeps of a transaction is its latest record. -/
lemma find?_fold (tx : TxId) (rs : List LogRecord) :
    (fold rs).find? (·.tx == tx) = latest? tx rs := by
  induction rs using List.reverseRecOn with
  | nil => rfl
  | append_singleton rs r ih => rw [fold_concat, find?_upsert, latest?_concat, ih]

lemma mem_upsert {q : LogRecord} (h : q ∈ upsert r rs) : q = r ∨ q ∈ rs := by
  induction rs with
  | nil => exact .inl (List.mem_singleton.mp h)
  | cons x xs ih =>
    unfold upsert at h
    split at h
    · rcases List.mem_cons.mp h with h | h
      · exact .inl h
      · exact .inr (List.mem_cons_of_mem _ h)
    · rcases List.mem_cons.mp h with rfl | h
      · exact .inr (List.mem_cons_self ..)
      · exact (ih h).imp id (List.mem_cons_of_mem _)

lemma nodup_upsert (h : (rs.map (·.tx)).Nodup) : ((upsert r rs).map (·.tx)).Nodup := by
  induction rs with
  | nil => exact List.nodup_singleton _
  | cons q qs ih =>
    rw [List.map_cons, List.nodup_cons] at h
    unfold upsert
    split
    next hq =>
      rw [List.map_cons, List.nodup_cons, ← hq]
      exact h
    next hq =>
      rw [List.map_cons, List.nodup_cons]
      refine ⟨fun hmem => ?_, ih h.2⟩
      obtain ⟨x, hx, hxq⟩ := List.mem_map.mp hmem
      rcases mem_upsert hx with rfl | hx
      · exact hq hxq.symm
      · exact h.1 (hxq ▸ List.mem_map_of_mem hx)

/-- The fold keeps one record of each transaction. -/
lemma nodup_fold (rs : List LogRecord) : ((fold rs).map (·.tx)).Nodup := by
  induction rs using List.reverseRecOn with
  | nil => exact List.nodup_nil
  | append_singleton rs r ih =>
    rw [fold_concat]
    exact nodup_upsert ih

/-- Among records of different transactions each is found by its own. -/
lemma find?_of_mem (hn : (rs.map (·.tx)).Nodup) (h : r ∈ rs) :
    rs.find? (·.tx == r.tx) = some r := by
  induction rs with
  | nil => cases h
  | cons q qs ih =>
    rw [List.map_cons, List.nodup_cons] at hn
    rcases List.mem_cons.mp h with rfl | h
    · simp
    · have hq : q.tx ≠ r.tx := fun hq => hn.1 (hq ▸ List.mem_map_of_mem h)
      rw [List.find?_cons_of_neg (by simp [hq])]
      exact ih hn.2 h

/-- What the fold keeps are latest records. -/
lemma latest?_of_mem_fold (h : r ∈ fold rs) : latest? r.tx rs = some r := by
  rw [← find?_fold]
  exact find?_of_mem (nodup_fold rs) h

lemma mem_fold_of_latest? (h : latest? tx rs = some r) : r ∈ fold rs := by
  rw [← find?_fold] at h
  exact List.mem_of_find?_eq_some h

end LogRecord

end TwoPhaseCommit
