import TwoPhaseCommit.Proofs.Repetition

/-!
# Folds of logs that go on

A fold takes the place of its log: whatever is appended later, the two are folded alike. Neither do
the records count that a pass of recovery removes, as long as nothing more is written about their
transactions (`LogRecord.fold_takes_place`). The place of a record can be searched for or looked up
in an index, with the same result (`LogRecord.foldIndexed_eq`).
-/

namespace TwoPhaseCommit

namespace LogRecord

variable {q r : LogRecord} {rs qs : List LogRecord}

/-! ### One record after another -/

lemma upsert_upsert (h : q.tx = r.tx) (rs : List LogRecord) :
    upsert r (upsert q rs) = upsert r rs := by
  induction rs with
  | nil => simp [upsert, h]
  | cons x xs ih =>
    by_cases hx : x.tx = r.tx
    · rw [upsert, if_pos (hx.trans h.symm), upsert, if_pos h, upsert, if_pos hx]
    · rw [upsert, if_neg (fun hq => hx (hq.trans h)), upsert, if_neg hx, ih, upsert, if_neg hx]

/-- Records of two transactions can be put in either order, once one of the two has its place. -/
lemma upsert_comm (h : q.tx ≠ r.tx) (hr : r.tx ∈ rs.map (·.tx)) :
    upsert q (upsert r rs) = upsert r (upsert q rs) := by
  induction rs with
  | nil => cases hr
  | cons x xs ih =>
    by_cases hxr : x.tx = r.tx
    · have hxq : x.tx ≠ q.tx := fun hq => h (hq.symm.trans hxr)
      rw [upsert, if_pos hxr, upsert, if_neg h.symm, upsert, if_neg hxq, upsert, if_pos hxr]
    · by_cases hxq : x.tx = q.tx
      · rw [upsert, if_neg hxr, upsert, if_pos hxq, upsert, if_pos hxq, upsert, if_neg h]
      · have hxs : r.tx ∈ xs.map (·.tx) := by
          rw [List.map_cons, List.mem_cons] at hr
          exact hr.resolve_left (Ne.symm hxr)
        rw [upsert, if_neg hxr, upsert, if_neg hxq, ih hxs, upsert, if_neg hxq, upsert, if_neg hxr]

lemma filter_upsert {p : TxId → Bool} (r : LogRecord) (rs : List LogRecord) :
    (upsert r rs).filter (fun q => p q.tx) =
      if p r.tx then upsert r (rs.filter fun q => p q.tx) else rs.filter fun q => p q.tx := by
  induction rs with
  | nil => cases hp : p r.tx <;> simp [upsert, hp]
  | cons x xs ih =>
    rw [upsert]
    by_cases hx : x.tx = r.tx
    · cases hp : p r.tx <;> simp [upsert, hx, hp]
    · rw [if_neg hx, List.filter_cons, ih]
      cases hp : p r.tx <;> cases hpx : p x.tx <;> simp [upsert, hx, hpx]

/-! ### The index -/

instance : Hashable TxId := ⟨fun id => hash id.bytes⟩

/-- A fold in progress, with an index of the places that the records of transactions have. -/
structure Indexed where
  records : List LogRecord
  slots : Std.HashMap TxId Nat

/-- Put a record in the place that the index gives, or at the end with a new entry of the index. -/
def Indexed.put (x : Indexed) (r : LogRecord) : Indexed :=
  match x.slots[r.tx]? with
  | some slot => { x with records := x.records.set slot r }
  | none => ⟨x.records ++ [r], x.slots.insert r.tx x.records.length⟩

/-- The fold of a log by way of an index, in one go over the log. -/
def foldIndexed (rs : List LogRecord) : List LogRecord := (rs.foldl Indexed.put ⟨[], ∅⟩).records

/-- The index gives the place of the record of every transaction, and of no other. -/
def Indexed.Sound (x : Indexed) : Prop :=
  ∀ tx, x.slots[tx]? = (x.records.map (·.tx)).idxOf? tx

variable {x : Indexed}

lemma upsert_eq_set {slot : Nat} (h : (rs.map (·.tx)).idxOf? r.tx = some slot) :
    upsert r rs = rs.set slot r := by
  induction rs generalizing slot with
  | nil => cases h
  | cons q qs ih =>
    rw [List.map_cons, List.idxOf?_cons] at h
    by_cases hq : q.tx = r.tx
    · rw [if_pos (beq_iff_eq.mpr hq)] at h
      obtain rfl := Option.some.inj h
      rw [upsert, if_pos hq, List.set_cons_zero]
    · rw [if_neg (mt beq_iff_eq.mp hq)] at h
      obtain ⟨i, hi, rfl⟩ := Option.map_eq_some_iff.mp h
      rw [upsert, if_neg hq, ih hi, List.set_cons_succ]

lemma idxOf?_concat {tx : TxId} {txs : List TxId} (h : tx ∉ txs) (tx' : TxId) :
    (txs ++ [tx]).idxOf? tx' = if tx == tx' then some txs.length else txs.idxOf? tx' := by
  rw [List.idxOf?, List.findIdx?_append, List.findIdx?_singleton]
  by_cases htx : tx = tx'
  · subst htx
    have hnone : txs.findIdx? (· == tx) = none := List.idxOf?_eq_none_iff.mpr h
    simp [hnone]
  · simp [htx]

lemma Indexed.Sound.records_put (h : x.Sound) (r : LogRecord) :
    (x.put r).records = upsert r x.records := by
  unfold put
  split
  next slot hslot => exact (upsert_eq_set ((h r.tx).symm.trans hslot)).symm
  next hslot =>
    exact (upsert_of_not_mem (List.idxOf?_eq_none_iff.mp ((h r.tx).symm.trans hslot))).symm

/-- What is put in its place leaves the index sound, as does what comes in at the end. -/
lemma Indexed.Sound.put (h : x.Sound) (r : LogRecord) : (x.put r).Sound := by
  intro tx
  rw [h.records_put, map_tx_upsert]
  unfold Indexed.put
  split
  next slot hslot =>
    have hmem : r.tx ∈ x.records.map (·.tx) := by
      rw [h] at hslot
      by_contra hr
      rw [List.idxOf?_eq_none_iff.mpr hr] at hslot
      cases hslot
    rw [if_pos hmem]
    exact h tx
  next hslot =>
    rw [h, List.idxOf?_eq_none_iff] at hslot
    rw [if_neg hslot, idxOf?_concat hslot, Std.HashMap.getElem?_insert, List.length_map, h]

/-- The index finds the same place as a search does. -/
theorem foldIndexed_eq (rs : List LogRecord) : foldIndexed rs = fold rs := by
  have h : (rs.foldl Indexed.put ⟨[], ∅⟩).Sound ∧
      (rs.foldl Indexed.put ⟨[], ∅⟩).records = fold rs := by
    induction rs using List.reverseRecOn with
    | nil => exact ⟨fun tx => Std.HashMap.getElem?_empty, rfl⟩
    | append_singleton rs r ih =>
      obtain ⟨hsound, hrecords⟩ := ih
      rw [List.foldl_concat, fold_concat, ← hrecords]
      exact ⟨hsound.put r, hsound.records_put r⟩
  exact h.2

/-! ### Folds of folds -/

lemma fold_fold (rs : List LogRecord) : fold (fold rs) = fold rs := fold_of_nodup (nodup_fold rs)

lemma fold_append (rs qs : List LogRecord) :
    fold (rs ++ qs) = qs.foldl (fun acc r => upsert r acc) (fold rs) := List.foldl_append

/-- A log can be folded before others are appended. -/
lemma fold_fold_append (rs qs : List LogRecord) : fold (fold rs ++ qs) = fold (rs ++ qs) := by
  rw [fold_append, fold_fold, ← fold_append]

/-- A later record of the same transaction overwrites an earlier one in its place. -/
lemma fold_overwrite (h : q.tx = r.tx) (hr : r.tx ∉ qs.map (·.tx)) (rs : List LogRecord) :
    fold (rs ++ r :: qs) = upsert r (fold (rs ++ q :: qs)) := by
  -- the records behind the place are others', so that `r` moves to the front past all of them
  induction qs using List.reverseRecOn with
  | nil => rw [fold_concat, fold_concat, upsert_upsert h]
  | append_singleton qs s ih =>
    rw [List.map_append, List.mem_append, not_or] at hr
    have hs : s.tx ≠ r.tx := fun hs => hr.2 (List.mem_singleton.mpr hs.symm)
    have hplace : r.tx ∈ (fold (rs ++ q :: qs)).map (·.tx) := by
      rw [map_tx_fold, List.mem_eraseDups, ← h]
      simp
    rw [← List.cons_append, ← List.append_assoc, fold_concat, ih hr.1, upsert_comm hs hplace,
      ← fold_concat, List.append_assoc, List.cons_append]

lemma fold_append_upsert (hn : (qs.map (·.tx)).Nodup) (rs : List LogRecord) (r : LogRecord) :
    fold (rs ++ upsert r qs) = upsert r (fold (rs ++ qs)) := by
  induction qs generalizing rs with
  | nil => rw [upsert, fold_concat, List.append_nil]
  | cons q qs ih =>
    rw [List.map_cons, List.nodup_cons] at hn
    by_cases hq : q.tx = r.tx
    · rw [upsert, if_pos hq, fold_overwrite hq (hq ▸ hn.1)]
    · rw [upsert, if_neg hq, List.append_cons, ih hn.2, ← List.append_cons]

/-- A log can be folded before it is appended to others. -/
lemma fold_append_fold (rs qs : List LogRecord) : fold (rs ++ fold qs) = fold (rs ++ qs) := by
  induction qs using List.reverseRecOn with
  | nil => rfl
  | append_singleton qs r ih =>
    rw [fold_concat, fold_append_upsert (nodup_fold qs), ih, ← fold_concat, List.append_assoc]

/-! ### Removal of transactions -/

/-- What a log says of some transactions does not depend on the others. -/
lemma fold_filter (p : TxId → Bool) (rs : List LogRecord) :
    fold (rs.filter fun r => p r.tx) = (fold rs).filter fun r => p r.tx := by
  induction rs using List.reverseRecOn with
  | nil => rfl
  | append_singleton rs r ih =>
    rw [fold_concat, filter_upsert, ← ih, List.filter_append]
    cases hp : p r.tx with
    | true => rw [List.filter_singleton, hp, if_pos rfl, cond_true, fold_concat]
    | false => simp [hp]

/-- Transactions that are resolved can be removed, unless more is written about them. -/
lemma unresolved_fold_remove {p : TxId → Bool} (hqs : ∀ q ∈ qs, p q.tx = true)
    (hrs : ∀ r ∈ fold rs, p r.tx = false → r.isResolved = true) :
    Recovery.unresolved (fold ((fold rs).filter (fun r => p r.tx) ++ qs)) =
      Recovery.unresolved (fold (rs ++ qs)) := by
  have hboth : (fold rs).filter (fun r => p r.tx) ++ qs = (fold rs ++ qs).filter fun r => p r.tx := by
    rw [List.filter_append, List.filter_eq_self.mpr hqs]
  rw [hboth, fold_filter, fold_fold_append, Recovery.unresolved, List.filter_filter]
  refine List.filter_congr fun r hr => ?_
  cases hp : p r.tx with
  | true => simp
  | false =>
    -- what is removed is said last in `rs`, where it is resolved
    have hlatest : latest? r.tx rs = some r := by
      rw [← latest?_append_of_ne fun q hq htx => by simp [← htx, hqs q hq] at hp]
      exact latest?_of_mem_fold hr
    simp [hrs r (mem_fold_of_latest? hlatest) hp]

/-- A folded log without the resolved records of transactions about which no more is written. -/
def purged (rs qs : List LogRecord) : List LogRecord :=
  (fold rs).filter fun r => !r.isResolved || (qs.map (·.tx)).contains r.tx

/-- A fold holds the last record of each transaction of its log, in order of first appearance. Two
logs that follow each other can be folded before, and what is resolved can be removed from the first
unless the second says more about it: the transactions that are left to settle are the same, with
the same records in the same order. -/
theorem fold_takes_place (rs qs : List LogRecord) :
    ((fold rs).map (·.tx) = (rs.map (·.tx)).eraseDups ∧ ((fold rs).map (·.tx)).Nodup ∧
      ∀ r ∈ fold rs, (rs.filter (·.tx == r.tx)).getLast? = some r) ∧
    fold (fold rs ++ fold qs) = fold (rs ++ qs) ∧
    Recovery.unresolved (fold (purged rs qs ++ qs)) = Recovery.unresolved (fold (rs ++ qs)) := by
  refine ⟨⟨map_tx_fold rs, nodup_fold rs, fun r hr => latest?_of_mem_fold hr⟩, ?_, ?_⟩
  · rw [fold_append_fold, fold_fold_append]
  · -- a record of the fold is the only one of its transaction, so that it can be told by its id
    let p : TxId → Bool := fun tx =>
      (qs.map (·.tx)).contains tx || !(latest? tx rs).any (·.isResolved)
    have hp : ∀ r ∈ fold rs, (!r.isResolved || (qs.map (·.tx)).contains r.tx) = p r.tx := by
      intro r hr
      simp [p, latest?_of_mem_fold hr, Bool.or_comm]
    rw [purged, List.filter_congr hp]
    refine unresolved_fold_remove (fun q hq => ?_) fun r hr hr' => ?_
    · simp only [p, Bool.or_eq_true, List.contains_iff_mem]
      exact .inl (List.mem_map_of_mem hq)
    · have hkept := (hp r hr).trans hr'
      simpa using (Bool.or_eq_false_iff.mp hkept).1

end LogRecord

end TwoPhaseCommit
