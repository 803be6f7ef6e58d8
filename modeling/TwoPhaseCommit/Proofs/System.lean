import Mathlib.Order.Nat
import TwoPhaseCommit.Coordinator.Context
import TwoPhaseCommit.Proofs.Transaction

/-!
# What may happen to a system

`System.Spares r` holds of a step that leaves alone what a completion of the transaction `r` relies
on, `System.Works r` of a step of that completion itself. A bystander to all transactions may begin
new ones besides (`System.Bystands`).
-/

namespace TwoPhaseCommit

/-- What a completion leaves alone of its own transaction. -/
structure Transaction.Same (t t' : Transaction) : Prop where
  id : t'.id = t.id
  adapters : t'.adapters = t.adapters
  onward : t.Onward t'

/-- The manager with one more transaction in flight. -/
def Manager.enroll (x : Manager) (r : TxRef) : Manager :=
  { x with
    registered := x.registered ++ [r], active := x.active + 1
    stats := { x.stats with begun := x.stats.begun + 1, active := x.stats.active + 1 } }

namespace System

variable {r q : TxRef} {m : ManagerRef} {s t u : System}

/-- A step of a bystander, as far as it concerns `r`. -/
structure Spares (r : TxRef) (s t : System) : Prop where
  size_le : s.transactions.size ≤ t.transactions.size
  undisturbed : r < s.transactions.size → (s.tx r).Undisturbed (t.tx r)

/-- A step of a completion of `r` that was admitted. -/
structure Works (r : TxRef) (s t : System) : Prop where
  size_eq : t.transactions.size = s.transactions.size
  others : ∀ q, q ≠ r → t.tx q = s.tx q
  same : (s.tx r).Same (t.tx r)
  taken : (t.tx r).Taken

/-- A step of somebody who completes nothing. -/
structure Bystands (s t : System) : Prop where
  spares : ∀ r, s.Spares r t
  fresh : ∀ r, s.transactions.size ≤ r → r < t.transactions.size →
    (t.tx r).Open ∧ (t.tx r).Distinct ∧ (t.tx r).WellMarked

/-- What every step of anybody leaves alone. -/
structure Grows (s t : System) : Prop where
  size_le : s.transactions.size ≤ t.transactions.size
  grows : ∀ r, r < s.transactions.size → (s.tx r).Grows (t.tx r)
  taken : ∀ r, r < s.transactions.size → (s.tx r).Taken → (t.tx r).Taken

@[refl] lemma Spares.refl (r : TxRef) (s : System) : s.Spares r s := ⟨le_rfl, fun _ => .refl _⟩

lemma Spares.trans (h : s.Spares r t) (h' : t.Spares r u) : s.Spares r u where
  size_le := h.size_le.trans h'.size_le
  undisturbed hr := (h.undisturbed hr).trans (h'.undisturbed (hr.trans_le h.size_le))

lemma Spares.of_tx_eq (hs : t.transactions.size = s.transactions.size) (ht : t.tx r = s.tx r) :
    s.Spares r t :=
  ⟨hs.ge, fun _ => ht ▸ .refl _⟩

lemma Works.trans (h : s.Works r t) (h' : t.Works r u) : s.Works r u where
  size_eq := h'.size_eq.trans h.size_eq
  others q hq := (h'.others q hq).trans (h.others q hq)
  same := {
    id := h'.same.id.trans h.same.id
    adapters := h'.same.adapters.trans h.same.adapters
    onward := h.same.onward.trans h'.same.onward }
  taken := h'.taken

/-- A completion is a bystander to all other transactions. -/
lemma Works.spares (h : s.Works q t) (hq : r ≠ q) : s.Spares r t :=
  .of_tx_eq h.size_eq (h.others r hq)

lemma Works.grows (h : s.Works q t) : s.Grows t where
  size_le := h.size_eq.ge
  grows r _ := by
    by_cases hr : r = q
    · subst hr
      exact .of_adapters h.same.id h.same.adapters h.same.onward
    · rw [h.others r hr]
  taken r _ ht := by
    by_cases hr : r = q
    · exact hr ▸ h.taken
    · rw [h.others r hr]
      exact ht

lemma Bystands.grows (h : s.Bystands t) : s.Grows t where
  size_le := (h.spares 0).size_le
  grows r hr := ((h.spares r).undisturbed hr).grows
  taken r hr ht := (((h.spares r).undisturbed hr).keeps ht).taken ht

lemma Bystands.of_size_eq (hs : t.transactions.size = s.transactions.size)
    (h : ∀ r, s.Spares r t) : s.Bystands t :=
  ⟨h, fun _ h₁ h₂ => absurd (hs ▸ h₂) h₁.not_gt⟩

@[refl] lemma Bystands.refl (s : System) : s.Bystands s := .of_size_eq rfl fun r => .refl r s

lemma Bystands.trans (h : s.Bystands t) (h' : t.Bystands u) : s.Bystands u where
  spares r := (h.spares r).trans (h'.spares r)
  fresh r h₁ h₂ := by
    by_cases hr : r < t.transactions.size
    · obtain ⟨ho, hd, hm⟩ := h.fresh r h₁ hr
      have hu := (h'.spares r).undisturbed hr
      exact ⟨hu.opens ho, hu.grows.distinct hd, hu.grows.onward.marks hm⟩
    · exact h'.fresh r (not_lt.mp hr) h₂

@[refl] lemma Grows.refl (s : System) : s.Grows s := (Bystands.refl s).grows

lemma Grows.trans (h : s.Grows t) (h' : t.Grows u) : s.Grows u where
  size_le := h.size_le.trans h'.size_le
  grows r hr := (h.grows r hr).trans (h'.grows r (hr.trans_le h.size_le))
  taken r hr ht := h'.taken r (hr.trans_le h.size_le) (h.taken r hr ht)

/-- There is no transaction beyond the last. -/
lemma tx_of_size_le (h : s.transactions.size ≤ r) : s.tx r = default := by
  simp [tx, Nat.not_lt.mpr h]

lemma lt_size_of_status (h : (s.tx r).status ≠ .noTransaction) : r < s.transactions.size := by
  by_contra hr
  rw [tx_of_size_le (Nat.not_lt.mp hr)] at h
  exact h rfl

/-- What has not ended is there. -/
lemma lt_size_of_isTerminal_eq_false (h : (s.tx r).status.isTerminal = false) :
    r < s.transactions.size := by
  refine lt_size_of_status fun hn => ?_
  rw [hn] at h
  cases h

/-! ### One transaction changes -/

@[simp] lemma size_modifyTx (s : System) (r : TxRef) (f : Transaction → Transaction) :
    (s.modifyTx r f).transactions.size = s.transactions.size := by
  simp [modifyTx]

lemma tx_modifyTx_self (f : Transaction → Transaction) (hr : r < s.transactions.size) :
    (s.modifyTx r f).tx r = f (s.tx r) := by
  rw [tx_modifyTx, if_pos ⟨rfl, hr⟩]

lemma tx_modifyTx_of_ne (f : Transaction → Transaction) (hq : q ≠ r) :
    (s.modifyTx r f).tx q = s.tx q := by
  rw [tx_modifyTx, if_neg fun h => hq h.1]

/-- A transaction is as it was, or it is the one that was changed. -/
lemma tx_modifyTx_cases (s : System) (r q : TxRef) (f : Transaction → Transaction) :
    (s.modifyTx r f).tx q = s.tx q ∨ q = r ∧ (s.modifyTx r f).tx q = f (s.tx q) := by
  rw [tx_modifyTx]
  split
  next h => exact .inr ⟨h.1, rfl⟩
  next => exact .inl rfl

lemma modifyTx_congr {f g : Transaction → Transaction} (h : f (s.tx r) = g (s.tx r)) :
    s.modifyTx r f = s.modifyTx r g := by
  have ha : s.transactions.modify r f = s.transactions.modify r g := by
    apply Array.ext (by simp)
    intro i h₁ h₂
    rw [Array.getElem_modify, Array.getElem_modify]
    split
    next hi =>
      subst hi
      rw [Array.size_modify] at h₁
      have ht : s.tx r = s.transactions[r] := by simp [tx, h₁]
      rw [← ht, h]
    next => rfl
  rw [modifyTx, ha, modifyTx]

/-- To change nothing of a transaction is to change nothing. -/
lemma modifyTx_eq_self {f : Transaction → Transaction} (h : f (s.tx r) = s.tx r) :
    s.modifyTx r f = s := by
  have hid : s.transactions.modify r (fun t => t) = s.transactions :=
    Array.ext (by simp) fun i h₁ h₂ => by simp [Array.getElem_modify]
  rw [modifyTx_congr (g := fun t => t) h, modifyTx, hid]

lemma works_modifyTx {f : Transaction → Transaction} (hr : r < s.transactions.size)
    (hf : (s.tx r).Same (f (s.tx r))) (ht : (f (s.tx r)).Taken) : s.Works r (s.modifyTx r f) where
  size_eq := size_modifyTx ..
  others _ hq := tx_modifyTx_of_ne f hq
  same := by rw [tx_modifyTx_self f hr]; exact hf
  taken := by rw [tx_modifyTx_self f hr]; exact ht

/-! ### One manager changes -/

lemma manager_modifyManager (s : System) (m k : ManagerRef) (f : Manager → Manager) :
    (s.modifyManager m f).manager k =
      if k = m ∧ k < s.managers.size then f (s.manager k) else s.manager k := by
  simp only [manager, modifyManager, Array.getD_eq_getD_getElem?, Array.getElem?_modify]
  by_cases h : m = k
  · subst h
    by_cases hr : m < s.managers.size
    · simp [hr]
    · simp [hr]
  · have hk : ¬k = m := fun e => h e.symm
    simp [h, hk]

lemma manager_modifyManager_self (f : Manager → Manager) (hm : m < s.managers.size) :
    (s.modifyManager m f).manager m = f (s.manager m) := by
  rw [manager_modifyManager, if_pos ⟨rfl, hm⟩]

/-! ### Operations of bystanders -/

lemma bystands_modifyTx (r : TxRef) {f : Transaction → Transaction}
    (h : (s.tx r).Undisturbed (f (s.tx r))) : s.Bystands (s.modifyTx r f) := by
  refine .of_size_eq (size_modifyTx ..) fun q => ⟨(size_modifyTx ..).ge, fun _ => ?_⟩
  rw [tx_modifyTx]
  split
  next hq => exact hq.1 ▸ h
  next => exact .refl _

/-- What is no part of any transaction may change. -/
lemma bystands_of_transactions_eq (h : t.transactions = s.transactions) : s.Bystands t := by
  have ht : ∀ r, t.tx r = s.tx r := fun r => by rw [tx, h, tx]
  exact .of_size_eq (congrArg _ h) fun r => .of_tx_eq (congrArg _ h) (ht r)

lemma bystands_expireIfDue (s : System) (m : ManagerRef) (r : TxRef) :
    s.Bystands (s.expireIfDue m r).2 := by
  unfold expireIfDue
  split
  next hd =>
    simp only [Transaction.isDue, Bool.and_eq_true, beq_iff_eq] at hd
    exact (bystands_modifyTx r (Transaction.undisturbed_expire hd.1.2)).trans
      (bystands_of_transactions_eq rfl)
  next => exact .refl s

/-! ### Begin -/

/-- The system with one more transaction. -/
def push (s : System) (timeout : Option Duration) : System :=
  let r := s.transactions.size
  { s with transactions := s.transactions.push { id := .mint s.seed r, timeout, start := s.clock } }

/-- What a begin that succeeds has done. -/
lemma begin_ok {timeout : Option Duration} (h : s.begin m timeout = .ok (r, t)) :
    (s.manager m).active < (s.manager m).config.maxActive ∧ r = s.transactions.size ∧
    ∃ timeout', t = (s.push timeout').modifyManager m (·.enroll s.transactions.size) := by
  by_cases hm : (s.manager m).active < (s.manager m).config.maxActive
  · simp only [begin, hm, if_true] at h
    cases h
    exact ⟨hm, rfl, _, rfl⟩
  · simp only [begin, hm, if_false] at h
    cases h

/-- A begin fails for want of room only. -/
lemma begin_eq_error_iff {timeout : Option Duration} {e : TxError} :
    s.begin m timeout = .error e ↔ (s.manager m).config.maxActive ≤ (s.manager m).active ∧
      e = .resourceExhausted (s.manager m).config.maxActive := by
  by_cases hm : (s.manager m).active < (s.manager m).config.maxActive
  · simp [begin, hm, hm.not_ge]
  · simp [begin, hm, not_lt.mp hm, eq_comm]

@[simp] lemma size_push (s : System) (timeout : Option Duration) :
    (s.push timeout).transactions.size = s.transactions.size + 1 := by
  simp [push]

lemma tx_push_of_lt (timeout : Option Duration) (hr : r < s.transactions.size) :
    (s.push timeout).tx r = s.tx r := by
  simp [push, tx, Array.getElem?_push_lt hr, hr]

lemma tx_push_self (s : System) (timeout : Option Duration) :
    (s.push timeout).tx s.transactions.size =
      { id := .mint s.seed s.transactions.size, timeout, start := s.clock } := by
  simp [push, tx]

lemma tx_begin {timeout : Option Duration} (h : s.begin m timeout = .ok (q, t))
    (hr : r < s.transactions.size) : t.tx r = s.tx r := by
  obtain ⟨-, -, timeout', rfl⟩ := begin_ok h
  rw [tx_modifyManager, tx_push_of_lt _ hr]

/-- A transaction is as it was, or it was just begun. -/
lemma tx_begin_cases {timeout : Option Duration} (h : s.begin m timeout = .ok (r, t)) (q : TxRef) :
    t.tx q = s.tx q ∨ s.tx q = default ∧
      ∃ timeout, t.tx q = { id := .mint s.seed q, timeout, start := s.clock } := by
  obtain ⟨-, -, timeout', rfl⟩ := begin_ok h
  rw [tx_modifyManager]
  rcases lt_trichotomy q s.transactions.size with hq | rfl | hq
  · exact .inl (tx_push_of_lt timeout' hq)
  · exact .inr ⟨tx_of_size_le le_rfl, timeout', tx_push_self ..⟩
  · left
    rw [tx_of_size_le (s := s.push timeout') (by rw [size_push]; exact hq), tx_of_size_le hq.le]

/-- The only transaction that is new is the one that was begun. -/
lemma eq_size_of_lt_push {timeout : Option Duration} (h₁ : s.transactions.size ≤ q)
    (h₂ : q < (s.push timeout).transactions.size) : q = s.transactions.size := by
  rw [size_push] at h₂
  exact (Nat.lt_succ_iff.mp h₂).antisymm h₁

lemma bystands_begin {timeout : Option Duration} (h : s.begin m timeout = .ok (r, t)) :
    s.Bystands t := by
  obtain ⟨-, -, timeout', rfl⟩ := begin_ok h
  refine ⟨fun q => ⟨by simp [modifyManager], fun hq => ?_⟩, fun q h₁ h₂ => ?_⟩
  · rw [tx_modifyManager, tx_push_of_lt _ hq]
  · rw [eq_size_of_lt_push h₁ h₂, tx_modifyManager, tx_push_self]
    exact ⟨⟨rfl, .inl rfl⟩, List.nodup_nil, by simp, by simp, by simp⟩

end System

end TwoPhaseCommit
