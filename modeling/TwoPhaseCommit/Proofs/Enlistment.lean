import TwoPhaseCommit.Proofs.Admission

/-!
# Who takes part

The participants of a transaction are those that were let in by an enlistment, in that order: nobody
comes in by another way, and nobody leaves, not even when its association is ended.
`Machine.Enlists` goes by what the enlistments of a program were answered.
-/

namespace TwoPhaseCommit

/-! ### What changes the participants of a transaction -/

namespace Transaction

variable {t t' : Transaction}

/-- Who is new comes last; who takes part already does not come in again. -/
lemma adapters_enlist {a : Adapter} {new : Bool} (h : t.enlist a = .ok (new, t')) :
    t'.adapters = t.adapters ++ if new then [a] else [] := by
  unfold enlist at h
  split at h
  next => cases h
  next =>
    split at h
    next =>
      cases h
      have ha := adapters_updateFirst (Enlisted.matches a.toAdapterKey)
        (f := fun e => { e with delisted := none }) (fun _ => rfl) t.resources
      exact ha.trans (List.append_nil _).symm
    next =>
      split at h
      next => cases h
      next =>
        cases h
        simp [adapters]

lemma adapters_delist {a : AdapterKey} {flag : DelistFlag} {found : Bool}
    (h : t.delist a flag = .ok (found, t')) : t'.adapters = t.adapters := by
  obtain ⟨_, ha, rfl | ⟨_, rfl⟩⟩ := delist_ok h
  · exact ha
  · exact ha

lemma adapters_register {c : Synchronization} {interposed : Bool}
    (h : t.register c interposed = .ok t') : t'.adapters = t.adapters := by
  obtain ⟨_, _, rfl⟩ := register_ok h
  rfl

lemma adapters_expire (t : Transaction) : t.expire.adapters = t.adapters := by
  unfold expire
  split <;> rfl

lemma adapters_claim {k : TaskId} (h : t.claim k = .ok t') : t'.adapters = t.adapters := by
  obtain ⟨-, rfl⟩ := claim_ok h
  rfl

lemma adapters_release (t : Transaction) (k : TaskId) : (t.release k).adapters = t.adapters := by
  unfold release
  split <;> rfl

end Transaction

/-! ### What lets nobody in -/

namespace System

variable {s t : System} {q r : TxRef} {m : ManagerRef}

lemma adapters_modifyTx {f : Transaction → Transaction}
    (h : (f (s.tx q)).adapters = (s.tx q).adapters) (r : TxRef) :
    ((s.modifyTx q f).tx r).adapters = (s.tx r).adapters := by
  rcases tx_modifyTx_cases s q r f with hsame | ⟨rfl, hnew⟩
  · rw [hsame]
  · rw [hnew]
    exact h

/-- Nobody takes part in a transaction that was just begun, as in one that there is not. -/
lemma adapters_begin {timeout : Option Duration} (h : s.begin m timeout = .ok (q, t)) (r : TxRef) :
    (t.tx r).adapters = (s.tx r).adapters := by
  rcases tx_begin_cases h r with hsame | ⟨hnone, timeout', hnew⟩
  · rw [hsame]
  · rw [hnone, hnew]
    rfl

lemma adapters_expireIfDue (s : System) (m : ManagerRef) (q r : TxRef) :
    ((s.expireIfDue m q).2.tx r).adapters = (s.tx r).adapters := by
  unfold expireIfDue
  split
  next => exact adapters_modifyTx (Transaction.adapters_expire _) r
  next => rfl

lemma adapters_release (s : System) (q : TxRef) (k : TaskId) (r : TxRef) :
    ((s.modifyTx q (·.release k)).tx r).adapters = (s.tx r).adapters :=
  adapters_modifyTx (f := fun x => x.release k) (Transaction.adapters_release (s.tx q) k) r

/-- A completion lets nobody in, whatever transaction it is of. -/
lemma Works.adapters (h : s.Works q t) (r : TxRef) : (t.tx r).adapters = (s.tx r).adapters := by
  by_cases hr : r = q
  · subst hr
    exact h.same.adapters
  · rw [h.others r hr]

end System

lemma Request.Harmless.adapters {m : ManagerRef} {q : TxRef} {how : Ending} {s t : System}
    (h : Harmless m q how s t) (r : TxRef) : (t.tx r).adapters = (s.tx r).adapters := by
  cases h with
  | nothing => rfl
  | released k => exact System.adapters_release s q k r
  | expired _ _ => exact System.adapters_expireIfDue s m q r

/-- An operation lets in whom it enlists as a new participant, and nobody else. -/
lemma Operation.Touches.adapters {s t : System} {o : Operation} (h : Touches s o t) (r : TxRef) :
    (t.tx r).adapters = (s.tx r).adapters ∨
    ∃ a x, o = .enlist r a ∧ (s.tx r).enlist a = .ok (true, x) := by
  cases h with
  | nothing => exact .inl rfl
  | waited _ => exact .inl rfl
  | added _ _ => exact .inl rfl
  | began hb => exact .inl (System.adapters_begin hb r)
  | @enlisted q a new x hx =>
    have hadapters := Transaction.adapters_enlist hx
    cases new with
    | false => exact .inl (System.adapters_modifyTx (hadapters.trans (List.append_nil _)) r)
    | true =>
      by_cases hq : r = q
      · subst hq
        exact .inr ⟨a, x, rfl, hx⟩
      · exact .inl (congrArg _ (System.tx_modifyTx_of_ne _ hq))
  | delisted hx => exact .inl (System.adapters_modifyTx (Transaction.adapters_delist hx) r)
  | registered hx => exact .inl (System.adapters_modifyTx (Transaction.adapters_register hx) r)
  | marked hx => exact .inl (System.adapters_modifyTx (Transaction.adapters_markRollbackOnly hx) r)
  | forced _ hx =>
    exact .inl (System.adapters_modifyTx (Transaction.adapters_markRollbackOnly hx) r)
  | looked m q => exact .inl (System.adapters_expireIfDue s m q r)

/-- Nobody is let in through a context. -/
lemma Context.Touches.adapters {c c' : Context} {s t : System} (h : c.Touches s c' t) (r : TxRef) :
    (t.tx r).adapters = (s.tx r).adapters := by
  cases h with
  | nothing _ => rfl
  | began _ hb _ => exact (System.adapters_modifyTx rfl r).trans (System.adapters_begin hb r)
  | claimed _ _ hx => exact System.adapters_modifyTx (Transaction.adapters_claim hx) r
  | @released q _ => exact System.adapters_release s q c.task r
  | marked hx => exact System.adapters_modifyTx (Transaction.adapters_markRollbackOnly hx) r

/-! ### In a program -/

namespace Machine

variable {M M' : Machine} {r : TxRef} {as : List Adapter}

/-- The adapters whose enlistment in a transaction was answered by their being new, in the course of
a program that has come to a machine. -/
inductive Enlists (r : TxRef) : Machine → List Adapter → Prop
  | initial (clock seed : Nat) : Enlists r (initial clock seed) []
  | enlist {M : Machine} {as : List Adapter} (h : Enlists r M as) {a : Adapter} {t : Transaction}
      (ha : (M.system.tx r).enlist a = .ok (true, t)) :
    Enlists r (M.operate (.enlist r a)) (as ++ [a])
  | other {M M' : Machine} {as : List Adapter} (h : Enlists r M as) (hs : Step M M')
      (hn : ∀ a t, (M.system.tx r).enlist a = .ok (true, t) → M' ≠ M.operate (.enlist r a)) :
    Enlists r M' as

lemma Enlists.reachable (h : M.Enlists r as) : M.Reachable := by
  induction h with
  | initial clock seed => exact reachable_initial clock seed
  | enlist _ _ ih => exact ih.operate _
  | other _ hs _ ih => exact ih.steps (.single hs)

/-- There is such a list for whatever a program may come to. -/
lemma Reachable.exists_enlists (hM : M.Reachable) (r : TxRef) : ∃ as, M.Enlists r as := by
  refine hM.induct (P := fun M => ∃ as, M.Enlists r as)
    (fun clock seed => ⟨[], .initial clock seed⟩) ?_
  rintro M M' ⟨as, h⟩ hs
  by_cases hn : ∀ a t, (M.system.tx r).enlist a = .ok (true, t) → M' ≠ M.operate (.enlist r a)
  · exact ⟨as, h.other hs hn⟩
  · push Not at hn
    obtain ⟨a, t, ha, rfl⟩ := hn
    exact ⟨as ++ [a], h.enlist ha⟩

/-- No step but such an enlistment lets anybody in. -/
lemma Reachable.adapters_step (hM : M.Reachable) (hs : Step M M') (r : TxRef) :
    (M'.system.tx r).adapters = (M.system.tx r).adapters ∨
    ∃ a t, (M.system.tx r).enlist a = .ok (true, t) ∧ M' = M.operate (.enlist r a) := by
  cases hM.alters hs with
  | operated o =>
    rcases (o.touches_apply M.system).adapters r with h | ⟨a, t, rfl, ha⟩
    · exact .inl h
    · exact .inr ⟨a, t, ha, rfl⟩
  | opened m hs =>
    rw [hs]
    exact .inl rfl
  | used h => exact .inl (h.adapters r)
  | harmless h => exact .inl (h.adapters r)
  | admitted hq _ hs =>
    rw [hs]
    exact .inl ((System.works_take hq).adapters r)
  | acted _ _ _ _ _ h => exact .inl (h.works.adapters r)

/-- The participants are those that were let in by an enlistment. -/
lemma Enlists.adapters (h : M.Enlists r as) : (M.system.tx r).adapters = as := by
  induction h with
  | initial clock seed => rfl
  | @enlist M as _ a t ha ih =>
    have hr : r < M.system.transactions.size :=
      System.lt_size_of_status (by simp [(Transaction.enlist_ok ha).1])
    change (((Operation.enlist r a).apply M.system).tx r).adapters = as ++ [a]
    rw [Operation.apply, ha]
    change ((M.system.modifyTx r fun _ => t).tx r).adapters = as ++ [a]
    rw [System.tx_modifyTx_self _ hr, Transaction.adapters_enlist ha, ih]
    rfl
  | other h hs hn ih =>
    rcases h.reachable.adapters_step hs r with hsame | ⟨a, t, ha, rfl⟩
    · exact hsame.trans ih
    · exact absurd rfl (hn a t ha)

end Machine

end TwoPhaseCommit
