import TwoPhaseCommit.Proofs.Callbacks
import TwoPhaseCommit.Proofs.Enlistment
import TwoPhaseCommit.Proofs.Program

/-!
# Registration

The callbacks of a transaction are those that were registered for it, in the order in which they
were, until a completion takes it (`Machine.Reachable.callbacks_run`). From then on none can be
registered any more.
-/

namespace TwoPhaseCommit

/-! ### What registers a callback -/

namespace Transaction

variable {t t' : Transaction} {x : Synchronization} {b : Bool}

/-- The callbacks of one kind. -/
def callbacks (t : Transaction) : Bool → List Synchronization
  | false => t.regular
  | true => t.interposed

lemma Retains.callbacks (h : t.Retains t') (b : Bool) : t'.callbacks b = t.callbacks b := by
  cases b with
  | false => exact h.regular
  | true => exact h.interposed

lemma callbacks_register (h : t.register x b = .ok t') (b' : Bool) :
    t'.callbacks b' = t.callbacks b' ++ if b = b' then [x] else [] := by
  unfold register at h
  split at h
  next => cases h
  next =>
    split at h
    next hb =>
      cases h
      subst hb
      cases b' <;> simp [callbacks]
    next hb =>
      cases h
      rw [Bool.not_eq_true] at hb
      subst hb
      cases b' <;> simp [callbacks]

/-- A completion lets no more callbacks in. -/
lemma register_of_taken (h : t.Taken) (x : Synchronization) (b : Bool) :
    t.register x b = .error (.illegalState (.cannotRegister t.id t.status)) := by
  unfold register
  rw [if_pos]
  by_contra hn
  rw [not_or, not_not, Bool.not_eq_true] at hn
  exact Open.not_taken ⟨hn.2, .inl hn.1⟩ h

lemma retains_enlist {a : Adapter} {new : Bool} (h : t.enlist a = .ok (new, t')) :
    t.Retains t' := by
  obtain ⟨-, _, rfl⟩ := enlist_ok h
  exact ⟨rfl, rfl⟩

lemma retains_delist {a : AdapterKey} {flag : DelistFlag} {found : Bool}
    (h : t.delist a flag = .ok (found, t')) : t.Retains t' := by
  obtain ⟨_, -, rfl | ⟨_, rfl⟩⟩ := delist_ok h
  · exact ⟨rfl, rfl⟩
  · exact ⟨rfl, rfl⟩

lemma retains_markRollbackOnly {why : RollbackReason} (h : t.markRollbackOnly why = .ok t') :
    t.Retains t' := by
  rcases markRollbackOnly_ok h with rfl | rfl
  · exact .refl _
  · exact ⟨rfl, rfl⟩

lemma retains_expire (t : Transaction) : t.Retains t.expire := by
  unfold expire
  split <;> exact ⟨rfl, rfl⟩

lemma retains_claim {k : TaskId} (h : t.claim k = .ok t') : t.Retains t' := by
  obtain ⟨-, rfl⟩ := claim_ok h
  exact ⟨rfl, rfl⟩

lemma retains_release (t : Transaction) (k : TaskId) : t.Retains (t.release k) := by
  unfold release
  split <;> exact ⟨rfl, rfl⟩

end Transaction

namespace System

variable {s t : System} {q r : TxRef} {m : ManagerRef}

lemma retains_modifyTx {f : Transaction → Transaction} (h : (s.tx q).Retains (f (s.tx q)))
    (r : TxRef) : (s.tx r).Retains ((s.modifyTx q f).tx r) := by
  rcases tx_modifyTx_cases s q r f with hsame | ⟨rfl, hnew⟩
  · rw [hsame]
  · rw [hnew]
    exact h

/-- A transaction that was just begun has no callbacks, as one that there is not. -/
lemma retains_begin {timeout : Option Duration} (h : s.begin m timeout = .ok (q, t)) (r : TxRef) :
    (s.tx r).Retains (t.tx r) := by
  rcases tx_begin_cases h r with hsame | ⟨hnone, timeout', hnew⟩
  · rw [hsame]
  · rw [hnone, hnew]
    exact ⟨rfl, rfl⟩

lemma retains_expireIfDue (s : System) (m : ManagerRef) (q r : TxRef) :
    (s.tx r).Retains ((s.expireIfDue m q).2.tx r) := by
  unfold expireIfDue
  split
  next => exact retains_modifyTx (Transaction.retains_expire _) r
  next => exact .refl _

lemma retains_release (s : System) (q : TxRef) (k : TaskId) (r : TxRef) :
    (s.tx r).Retains ((s.modifyTx q (·.release k)).tx r) :=
  retains_modifyTx (f := fun t => t.release k) (Transaction.retains_release (s.tx q) k) r

lemma lt_size_of_taken (h : (s.tx r).Taken) : r < s.transactions.size := by
  by_contra hr
  rw [tx_of_size_le (not_lt.mp hr)] at h
  rcases h with h | h | h <;> cases h

end System

namespace Operation

variable {s t : System} {o : Operation} {r : TxRef} {b : Bool}

/-- The callback that an operation registers for a transaction, if it succeeds. -/
def registers (s : System) (r : TxRef) (b : Bool) : Operation → List Synchronization
  | register q x interposed =>
    if q = r ∧ interposed = b ∧ ((s.tx q).register x interposed).isOk then [x] else []
  | _ => []

/-- Nothing else concerns the callbacks. -/
lemma Touches.retains (h : Touches s o t) (ho : ∀ x interposed, o ≠ .register r x interposed) :
    (s.tx r).Retains (t.tx r) := by
  cases h with
  | nothing | waited _ | added _ _ => exact .refl _
  | began hb => exact System.retains_begin hb r
  | enlisted hx => exact System.retains_modifyTx (Transaction.retains_enlist hx) r
  | delisted hx => exact System.retains_modifyTx (Transaction.retains_delist hx) r
  | @registered q x interposed _ _ =>
    have hq : r ≠ q := by
      rintro rfl
      exact ho x interposed rfl
    rw [System.tx_modifyTx_of_ne _ hq]
  | marked hx => exact System.retains_modifyTx (Transaction.retains_markRollbackOnly hx) r
  | forced _ hx => exact System.retains_modifyTx (Transaction.retains_markRollbackOnly hx) r
  | looked m q => exact System.retains_expireIfDue s m q r

lemma callbacks_apply (o : Operation) (s : System) (r : TxRef) (b : Bool) :
    ((o.apply s).tx r).callbacks b = (s.tx r).callbacks b ++ o.registers s r b := by
  by_cases ho : ∃ x interposed, o = .register r x interposed
  · obtain ⟨x, interposed, rfl⟩ := ho
    simp only [apply, registers, true_and]
    cases hx : (s.tx r).register x interposed with
    | error e => simp [System.changeTx, Except.isOk, Except.toBool]
    | ok t =>
      have hlt : r < s.transactions.size := by
        refine System.lt_size_of_status fun hn => ?_
        simp [Transaction.register, hn] at hx
      rw [System.changeTx, System.tx_modifyTx_self _ hlt, Transaction.callbacks_register hx]
      simp [Except.isOk, Except.toBool]
  · push Not at ho
    have hnone : o.registers s r b = [] := by
      cases o with
      | register q x interposed => exact if_neg fun h => ho x interposed (by rw [h.1])
      | _ => rfl
    rw [hnone, List.append_nil, ((o.touches_apply s).retains ho).callbacks]

end Operation

/-- No callback is registered through a context. -/
lemma Context.Touches.retains {c c' : Context} {s t : System} (h : c.Touches s c' t) (r : TxRef) :
    (s.tx r).Retains (t.tx r) := by
  cases h with
  | nothing _ => exact .refl _
  | began _ hb _ => exact (System.retains_begin hb r).trans (System.retains_modifyTx ⟨rfl, rfl⟩ r)
  | claimed _ _ hx => exact System.retains_modifyTx (Transaction.retains_claim hx) r
  | @released q _ => exact System.retains_release s q c.task r
  | marked hx => exact System.retains_modifyTx (Transaction.retains_markRollbackOnly hx) r

lemma Request.Harmless.retains {m : ManagerRef} {q : TxRef} {how : Ending} {s t : System}
    (h : Harmless m q how s t) (r : TxRef) : (s.tx r).Retains (t.tx r) := by
  cases h with
  | nothing => exact .refl _
  | released k => exact System.retains_release s q k r
  | expired _ _ => exact System.retains_expireIfDue s m q r

/-! ### In a program -/

namespace Machine

variable {M M' : Machine} {r : TxRef} {b : Bool}

/-- The callback that an act registers for a transaction, if it succeeds. -/
def registers (M : Machine) (r : TxRef) (b : Bool) : Act → List Synchronization
  | .operate o => o.registers M.system r b
  | _ => []

/-- The callbacks of one kind that some acts register for a transaction, in order. -/
def registrations (r : TxRef) (b : Bool) : Machine → List Act → List Synchronization
  | _, [] => []
  | M, a :: as => M.registers r b a ++ registrations r b (M.perform a) as

lemma registrations_append (M : Machine) (r : TxRef) (b : Bool) (as cs : List Act) :
    M.registrations r b (as ++ cs) =
      M.registrations r b as ++ (M.run as).registrations r b cs := by
  induction as generalizing M with
  | nil => rfl
  | cons a as ih => rw [List.cons_append, registrations, ih, ← List.append_assoc, registrations,
      run_cons]

/-! ### Until a completion takes the transaction -/

lemma Reachable.taken (hM : M.Reachable) (hs : M.Steps M') (ht : (M.system.tx r).Taken) :
    (M'.system.tx r).Taken :=
  (hM.grows hs).taken r (System.lt_size_of_taken ht) ht

lemma Reachable.retains_answer (hM : M.Reachable) {i : Nat} {x : Request}
    (hi : M.requests[i]? = some x) {s : System} {q : Question}
    {next : System → q.Answer → Dialogue (Except TxError Unit)} (hp : x.progress = .ask s q next)
    (a : q.Answer) (r : TxRef) :
    (M.system.tx r).Retains ((next M.system a).system.tx r) ∨
      ((next M.system a).system.tx r).Taken := by
  obtain ⟨owner, hsound⟩ := hM.sound
  have hworks : ∀ {t : System}, M.system.Works x.tx t →
      (M.system.tx r).Retains (t.tx r) ∨ (t.tx r).Taken := by
    intro t hw
    by_cases hr : r = x.tx
    · exact .inr (hr ▸ hw.taken)
    · rw [hw.others r hr]
      exact .inl (.refl _)
  rcases hsound.answer hi hp a with ⟨hl, -⟩ | ⟨-, htake, -⟩ | ⟨-, ⟨c, g, hk, -⟩, hacts⟩
  · exact .inl (hl.harmless.retains r)
  · rw [htake]
    exact hworks (System.works_take (hsound.refers i x hi))
  · obtain ⟨g', hg, -⟩ := hacts c g hk
    exact hworks (hk.tx ▸ hg.works)

/-- What is no operation leaves the callbacks of a transaction alone, unless it takes it. -/
lemma Reachable.retains_perform (hM : M.Reachable) {a : Act} (ha : ∀ o, a ≠ .operate o)
    (r : TxRef) :
    (M.system.tx r).Retains ((M.perform a).system.tx r) ∨ ((M.perform a).system.tx r).Taken := by
  cases a with
  | operate o => exact absurd rfl (ha o)
  | openContext m => exact .inl (.refl _)
  | useContext k o =>
    rw [Machine.perform, Machine.useContext]
    split
    · split
      next c hc => exact .inl ((o.touches_apply c M.system).retains r)
      next => exact .inl (.refl _)
    · exact .inl (.refl _)
  | dropContext k =>
    rw [Machine.perform, Machine.dropContext]
    split
    next c hc => exact .inl ((c.touches_suspend M.system).retains r)
    next => exact .inl (.refl _)
  | request how m q =>
    rw [Machine.perform, Machine.request]
    split
    next hq =>
      dsimp only
      rw [(station_proc how m rfl).1]
      exact .inl (.refl _)
    next => exact .inl (.refl _)
  | requestWithin how k =>
    rw [Machine.perform, Machine.requestWithin]
    split
    next c hc =>
      split
      next q hq =>
        split
        next hlt =>
          dsimp only
          rcases enter_cases hq how M.system with ⟨why, he⟩ | he
          · rw [he]
            exact .inl (.refl _)
          · rw [he, (station_proc how c.manager rfl).1]
            exact .inl (System.retains_release M.system q c.task r)
        next => exact .inl (.refl _)
      next => exact .inl (.refl _)
    next => exact .inl (.refl _)
  | answer i reply =>
    rw [Machine.perform, hear]
    split
    next x hi =>
      split
      next s q next hp =>
        split
        next a ha => exact hM.retains_answer hi hp a r
        next => exact .inl (.refl _)
      next => exact .inl (.refl _)
    next => exact .inl (.refl _)

lemma Reachable.callbacks_perform (hM : M.Reachable) (a : Act)
    (hn : ¬((M.perform a).system.tx r).Taken) (b : Bool) :
    ((M.perform a).system.tx r).callbacks b =
      (M.system.tx r).callbacks b ++ M.registers r b a := by
  by_cases ha : ∃ o, a = .operate o
  · obtain ⟨o, rfl⟩ := ha
    exact o.callbacks_apply M.system r b
  · push Not at ha
    have hnone : M.registers r b a = [] := by
      cases a with
      | operate o => exact absurd rfl (ha o)
      | _ => rfl
    rw [hnone, List.append_nil]
    exact ((hM.retains_perform ha r).resolve_right hn).callbacks b

/-- The callbacks are those that were registered. -/
lemma Reachable.callbacks_run (hM : M.Reachable) (as : List Act)
    (hn : ¬((M.run as).system.tx r).Taken) (b : Bool) :
    ((M.run as).system.tx r).callbacks b =
      (M.system.tx r).callbacks b ++ M.registrations r b as := by
  induction as generalizing M with
  | nil => exact (List.append_nil _).symm
  | cons a as ih =>
    have hM' := hM.perform a
    have hn' : ¬((M.perform a).system.tx r).Taken := fun ht => hn (hM'.taken (steps_run _ as) ht)
    rw [run_cons, ih hM' hn, hM.callbacks_perform a hn', registrations, List.append_assoc]

/-! ### From then on -/

/-- What takes an open transaction registers nothing. -/
lemma registers_of_takes {a : Act} (ho : (M.system.tx r).Open)
    (ht : ((M.perform a).system.tx r).Taken) : M.registers r b a = [] := by
  cases a with
  | operate o =>
    have hlt : r < M.system.transactions.size := by
      refine System.lt_size_of_status fun hn => ?_
      rcases ho.2 with hs | hs <;> rw [hn] at hs <;> cases hs
    have hb := (o.touches_apply M.system).bystands
    exact absurd ht (((hb.spares r).undisturbed hlt).opens ho).not_taken
  | _ => rfl

lemma registers_of_taken (ht : (M.system.tx r).Taken) (a : Act) : M.registers r b a = [] := by
  cases a with
  | operate o =>
    cases o with
    | register q x interposed =>
      refine if_neg ?_
      rintro ⟨rfl, -, hok⟩
      rw [Transaction.register_of_taken ht] at hok
      cases hok
    | _ => rfl
  | _ => rfl

lemma Reachable.registrations_of_taken (hM : M.Reachable) (ht : (M.system.tx r).Taken)
    (as : List Act) : M.registrations r b as = [] := by
  induction as generalizing M with
  | nil => rfl
  | cons a as ih =>
    rw [registrations, registers_of_taken ht, ih (hM.perform a)
      (hM.taken (M.steps_perform a) ht), List.append_nil]

end Machine

end TwoPhaseCommit
