import TwoPhaseCommit.Proofs.Statuses

/-!
# Tasks and their transactions

That a task holds a transaction is known twice: its context names the transaction, and the
transaction names the task as its owner. In every program the two agree (`Machine.Associated`),
until the transaction has ended. So no transaction is held in two contexts, a task always owns what
it is to complete, and nobody owns what was just begun.
-/

namespace TwoPhaseCommit

/-! ### Steps that concern no task -/

/-- No task, and no owner of a transaction, is concerned. -/
structure System.KeepsOwners (s t : System) : Prop where
  nextTask : t.nextTask = s.nextTask
  size_le : s.transactions.size ≤ t.transactions.size
  owner : ∀ r, r < s.transactions.size → (t.tx r).owner = (s.tx r).owner
  /-- Nobody owns a transaction that was just begun. -/
  fresh : ∀ r, s.transactions.size ≤ r → (t.tx r).owner = none

namespace System

variable {s t : System} {m : ManagerRef} {r : TxRef}

lemma owner_of_size_le (h : s.transactions.size ≤ r) : (s.tx r).owner = none := by
  rw [tx_of_size_le h]
  rfl

lemma keepsOwners_of_size_eq (hn : t.nextTask = s.nextTask)
    (hs : t.transactions.size = s.transactions.size) (h : ∀ r, (t.tx r).owner = (s.tx r).owner) :
    s.KeepsOwners t :=
  ⟨hn, hs.ge, fun r _ => h r, fun r hr => (h r).trans (owner_of_size_le hr)⟩

lemma keepsOwners_modifyTx {f : Transaction → Transaction}
    (h : (f (s.tx r)).owner = (s.tx r).owner) : s.KeepsOwners (s.modifyTx r f) := by
  refine keepsOwners_of_size_eq rfl (size_modifyTx ..) fun q => ?_
  rw [tx_modifyTx]
  split
  next hq =>
    rw [hq.1]
    exact h
  next => rfl

lemma keepsOwners_begin {timeout : Option Duration} (h : s.begin m timeout = .ok (r, t)) :
    s.KeepsOwners t := by
  obtain ⟨-, -, timeout', rfl⟩ := begin_ok h
  refine ⟨rfl, (size_push s timeout').symm ▸ Nat.le_succ _, fun q hq => ?_, fun q hq => ?_⟩
  · rw [tx_modifyManager, tx_push_of_lt _ hq]
  · rw [tx_modifyManager]
    rcases hq.eq_or_lt with rfl | hlt
    · rw [tx_push_self]
    · exact owner_of_size_le (by rw [size_push]; exact hlt)

lemma keepsOwners_expireIfDue (s : System) (m : ManagerRef) (r : TxRef) :
    s.KeepsOwners (s.expireIfDue m r).2 := by
  unfold expireIfDue
  split
  next =>
    have h := keepsOwners_modifyTx (s := s) (r := r) (f := Transaction.expire)
      (Transaction.owner_expire _)
    exact ⟨h.nextTask, h.size_le, h.owner, h.fresh⟩
  next => exact keepsOwners_of_size_eq rfl rfl fun _ => rfl

lemma keepsOwners_take (s : System) (r : TxRef) : s.KeepsOwners (s.take r) :=
  keepsOwners_modifyTx rfl

end System

lemma Operation.Touches.keepsOwners {s t : System} {o : Operation} (h : Touches s o t) :
    s.KeepsOwners t := by
  cases h with
  | nothing => exact System.keepsOwners_of_size_eq rfl rfl fun _ => rfl
  | waited _ => exact System.keepsOwners_of_size_eq rfl rfl fun _ => rfl
  | added _ _ => exact System.keepsOwners_of_size_eq rfl rfl fun _ => rfl
  | began hb => exact System.keepsOwners_begin hb
  | enlisted hx => exact System.keepsOwners_modifyTx (Transaction.unconcerned_enlist hx).owner
  | delisted hx => exact System.keepsOwners_modifyTx (Transaction.unconcerned_delist hx).owner
  | registered hx => exact System.keepsOwners_modifyTx (Transaction.unconcerned_register hx).owner
  | marked hx =>
    exact System.keepsOwners_modifyTx (Transaction.unconcerned_markRollbackOnly hx).owner
  | forced _ hx =>
    exact System.keepsOwners_modifyTx (Transaction.unconcerned_markRollbackOnly hx).owner
  | looked m r => exact System.keepsOwners_expireIfDue s m r

lemma Request.Looks.keepsOwners {m : ManagerRef} {r : TxRef} {how : Ending} {s t : System}
    (h : Looks m r how s t) : s.KeepsOwners t := by
  cases h with
  | nothing => exact System.keepsOwners_of_size_eq rfl rfl fun _ => rfl
  | expired _ => exact System.keepsOwners_expireIfDue s m r

lemma Completion.Acts.keepsOwners {c : Completion} {g g' : Diary} {s t : System}
    (h : c.Acts g s t g') : s.KeepsOwners t := by
  cases h with
  | moves hs h => exact System.keepsOwners_modifyTx h.owner
  | strikes h => exact System.keepsOwners_of_size_eq rfl rfl fun _ => rfl
  | counts h => exact System.keepsOwners_of_size_eq rfl rfl fun _ => rfl

/-! ### Claims -/

namespace Transaction

variable {t t' : Transaction} {k : TaskId}

lemma claim_of_none (h : t.owner = none) : t.claim k = .ok { t with owner := some k } := by
  rw [claim, h]

lemma owner_release (h : t.owner = some k) : (t.release k).owner = none := by
  rw [release, if_pos h]

end Transaction

namespace Context

variable {c : Context} {s : System} {r : TxRef}

lemma held?_congr {t : System} (h : ∀ r, c.current = some r → t.tx r = s.tx r) :
    c.held? t = c.held? s := by
  cases hr : c.current with
  | none => simp [held?, hr]
  | some r => simp [held?, hr, h r hr]

/-- What does not keep a context from taking another transaction has ended. -/
lemma isTerminal_of_held? (hh : c.held? s = none) (hr : c.current = some r) :
    (s.tx r).status.isTerminal = true := by
  simpa [held?, hr] using hh

lemma takeOwned_of_owner (call : String) (hr : c.current = some r)
    (ho : (s.tx r).owner = some c.task) :
    c.takeOwned call s = .ok (r, { c with current := none }, s.modifyTx r (·.release c.task)) := by
  rw [takeOwned, hr]
  exact if_pos ho

end Context

/-! ### Association -/

namespace Machine

/-- A context and the transaction that it holds name each other, until the transaction has ended. -/
structure Associated (s : System) (cs : List (Option Context)) : Prop where
  tasks : ∀ (k : Nat) (c : Context), cs[k]? = some (some c) → c.task.number < s.nextTask
  distinct : ∀ (k k' : Nat) (c c' : Context), cs[k]? = some (some c) → cs[k']? = some (some c') →
    c.task = c'.task → k = k'
  owns : ∀ (k : Nat) (c : Context) (r : TxRef), cs[k]? = some (some c) → c.current = some r →
    r < s.transactions.size ∧ (s.tx r).owner = some c.task
  held : ∀ (r : TxRef) (task : TaskId), (s.tx r).owner = some task →
    (s.tx r).status.isTerminal = false →
    ∃ (k : Nat) (c : Context), cs[k]? = some (some c) ∧ c.task = task ∧ c.current = some r

variable {s t : System} {cs : List (Option Context)} {k : Nat} {c : Context} {r : TxRef}

lemma Associated.keepsOwners (h : Associated s cs) (ht : s.KeepsOwners t)
    (hfinal : ∀ r, r < s.transactions.size → (s.tx r).status.isTerminal = true →
      (t.tx r).status.isTerminal = true) : Associated t cs where
  tasks k c hk := ht.nextTask ▸ h.tasks k c hk
  distinct := h.distinct
  owns k c r hk hr := by
    obtain ⟨hlt, ho⟩ := h.owns k c r hk hr
    exact ⟨hlt.trans_le ht.size_le, (ht.owner r hlt).trans ho⟩
  held r task ho hs := by
    by_cases hr : r < s.transactions.size
    · refine h.held r task ((ht.owner r hr).symm.trans ho) ?_
      by_contra hne
      rw [hfinal r hr (Bool.not_eq_false _ ▸ hne)] at hs
      cases hs
    · rw [ht.fresh r (not_lt.mp hr)] at ho
      cases ho

lemma live_concat_cases {d : Context} (h : (cs ++ [some d])[k]? = some (some c)) :
    cs[k]? = some (some c) ∨ k = cs.length ∧ c = d :=
  (getElem?_concat_cases h).imp_right fun ⟨hk, hc⟩ => ⟨hk, Option.some.inj hc⟩

lemma live_set_cases {c' : Option Context} {j : Nat} {d : Context}
    (h : (cs.set k c')[j]? = some (some d)) :
    j ≠ k ∧ cs[j]? = some (some d) ∨ j = k ∧ c' = some d :=
  (getElem?_set_cases h).imp_right fun ⟨hj, hc⟩ => ⟨hj, hc.symm⟩

/-- A new context has a new task. -/
lemma Associated.openContext (h : Associated s cs) (m : ManagerRef) :
    Associated (Context.new m s).2 (cs ++ [some (Context.new m s).1]) where
  tasks k c hk := by
    rcases live_concat_cases hk with hk | ⟨-, rfl⟩
    · exact (h.tasks k c hk).trans (Nat.lt_succ_self _)
    · exact Nat.lt_succ_self _
  distinct k k' c c' hk hk' hc := by
    rcases live_concat_cases hk with hk | ⟨rfl, rfl⟩ <;>
      rcases live_concat_cases hk' with hk' | ⟨rfl, rfl⟩
    · exact h.distinct k k' c c' hk hk' hc
    · exact absurd (congrArg TaskId.number hc) (h.tasks k c hk).ne
    · exact absurd (congrArg TaskId.number hc).symm (h.tasks k' c' hk').ne
    · rfl
  owns k c r hk hr := by
    rcases live_concat_cases hk with hk | ⟨-, rfl⟩
    · exact h.owns k c r hk hr
    · cases hr
  held r task ho hs := by
    obtain ⟨k, c, hk, hc, hr⟩ := h.held r task ho hs
    exact ⟨k, c, (List.getElem?_append_left (List.getElem?_eq_some_iff.mp hk).1).trans hk, hc, hr⟩

/-- One context and the system change together. What the context held before is no longer owned, or
has ended, unless it holds it still. -/
lemma Associated.set (h : Associated s cs) (hk : cs[k]? = some (some c)) {c' : Option Context}
    (hn : t.nextTask = s.nextTask) (hsize : s.transactions.size ≤ t.transactions.size)
    (htask : ∀ d, c' = some d → d.task = c.task)
    (howns : ∀ d r, c' = some d → d.current = some r →
      r < t.transactions.size ∧ (t.tx r).owner = some c.task)
    (hothers : ∀ r task, task ≠ c.task → (s.tx r).owner = some task → (t.tx r).owner = some task)
    (hheld : ∀ r task, (t.tx r).owner = some task → (t.tx r).status.isTerminal = false →
      (∃ d, c' = some d ∧ d.current = some r ∧ task = c.task) ∨
      (s.tx r).owner = some task ∧ (s.tx r).status.isTerminal = false ∧ c.current ≠ some r) :
    Associated t (cs.set k c') where
  tasks j d hj := by
    rw [hn]
    rcases live_set_cases hj with ⟨-, hj⟩ | ⟨-, hd⟩
    · exact h.tasks j d hj
    · rw [htask d hd]
      exact h.tasks k c hk
  distinct i j d e hi hj hde := by
    rcases live_set_cases hi with ⟨-, hi'⟩ | ⟨rfl, hd⟩ <;>
      rcases live_set_cases hj with ⟨-, hj'⟩ | ⟨rfl, he⟩
    · exact h.distinct i j d e hi' hj' hde
    · exact h.distinct i j d c hi' hk (hde.trans (htask e he))
    · exact h.distinct i j c e hk hj' ((htask d hd).symm.trans hde)
    · rfl
  owns j d r hj hr := by
    rcases live_set_cases hj with ⟨hjk, hj⟩ | ⟨rfl, hd⟩
    · obtain ⟨hlt, ho⟩ := h.owns j d r hj hr
      exact ⟨hlt.trans_le hsize, hothers r _ (fun he => hjk (h.distinct j k d c hj hk he)) ho⟩
    · rw [htask d hd]
      exact howns d r hd hr
  held r task ho hs := by
    rcases hheld r task ho hs with ⟨d, rfl, hr, rfl⟩ | ⟨ho, hs, hc⟩
    · exact ⟨k, d, List.getElem?_set_self (List.getElem?_eq_some_iff.mp hk).1, htask d rfl, hr⟩
    · obtain ⟨j, d, hj, hd, hr⟩ := h.held r task ho hs
      -- the context that is replaced does not hold it
      have hjk : j ≠ k := by
        rintro rfl
        obtain rfl := Option.some.inj (Option.some.inj (hj.symm.trans hk))
        exact hc hr
      exact ⟨j, d, (List.getElem?_set_ne hjk.symm).trans hj, hd, hr⟩

/-- A context changes nothing but its timeout. -/
lemma Associated.timeout (h : Associated s cs) (hk : cs[k]? = some (some c))
    (timeout : Option Duration) : Associated s (cs.set k (some { c with timeout })) := by
  refine h.set hk rfl le_rfl ?_ ?_ (fun _ _ _ ho => ho) fun r task ho hs => ?_
  · rintro d ⟨⟩
    rfl
  · rintro d r ⟨⟩ hr
    exact h.owns k c r hk hr
  · by_cases hr : c.current = some r
    · have hown := (h.owns k c r hk hr).2
      exact .inl ⟨_, rfl, hr, Option.some.inj (ho.symm.trans hown)⟩
    · exact .inr ⟨ho, hs, hr⟩

/-- A context that holds nothing is dropped. -/
lemma Associated.drop (h : Associated s cs) (hk : cs[k]? = some (some c)) (hr : c.current = none) :
    Associated s (cs.set k none) := by
  refine h.set hk rfl le_rfl nofun nofun (fun _ _ _ ho => ho) fun r task ho hs => ?_
  exact .inr ⟨ho, hs, by rw [hr]; nofun⟩

/-- A context lets go what it holds. -/
lemma Associated.release (h : Associated s cs) (hk : cs[k]? = some (some c))
    (hr : c.current = some r) {c' : Option Context}
    (hc : ∀ d, c' = some d → d.task = c.task ∧ d.current = none) :
    Associated (s.modifyTx r (·.release c.task)) (cs.set k c') := by
  obtain ⟨hlt, hown⟩ := h.owns k c r hk hr
  have hself : ((s.modifyTx r (·.release c.task)).tx r).owner = none := by
    rw [System.tx_modifyTx_self _ hlt]
    exact Transaction.owner_release hown
  refine h.set hk rfl (System.size_modifyTx ..).ge (fun d hd => (hc d hd).1) ?_ ?_ ?_
  · intro d q hd hq
    rw [(hc d hd).2] at hq
    cases hq
  · intro q task hne ho
    by_cases hq : q = r
    · subst hq
      exact absurd (Option.some.inj (ho.symm.trans hown)) hne
    · rw [System.tx_modifyTx_of_ne _ hq]
      exact ho
  · intro q task ho hs
    by_cases hq : q = r
    · subst hq
      rw [hself] at ho
      cases ho
    · rw [System.tx_modifyTx_of_ne _ hq] at ho hs
      refine .inr ⟨ho, hs, ?_⟩
      rw [hr]
      exact fun he => hq (Option.some.inj he).symm

/-- A context takes what nobody else holds. -/
lemma Associated.claim (h : Associated s cs) (hk : cs[k]? = some (some c)) (hh : c.held? s = none)
    (hlt : r < s.transactions.size) {x : Transaction} (hx : (s.tx r).claim c.task = .ok x) :
    Associated (s.modifyTx r fun _ => x) (cs.set k (some { c with current := some r })) := by
  obtain ⟨hfree, rfl⟩ := Transaction.claim_ok hx
  have hself := System.tx_modifyTx_self (s := s) (fun _ => { s.tx r with owner := some c.task }) hlt
  refine h.set hk rfl (System.size_modifyTx ..).ge ?_ ?_ ?_ ?_
  · rintro d ⟨⟩
    rfl
  · rintro d q ⟨⟩ hq
    obtain rfl := Option.some.inj hq
    rw [System.size_modifyTx, hself]
    exact ⟨hlt, rfl⟩
  · intro q task hne ho
    by_cases hq : q = r
    · subst hq
      rcases hfree with hnone | hsome
      · rw [hnone] at ho
        cases ho
      · exact absurd (Option.some.inj (ho.symm.trans hsome)) hne
    · rw [System.tx_modifyTx_of_ne _ hq]
      exact ho
  · intro q task ho hs
    by_cases hq : q = r
    · subst hq
      rw [hself] at ho
      exact .inl ⟨_, rfl, rfl, (Option.some.inj ho).symm⟩
    · -- what the context held before has ended, or it could not take another
      rw [System.tx_modifyTx_of_ne _ hq] at ho hs
      refine .inr ⟨ho, hs, fun hc => ?_⟩
      rw [Context.isTerminal_of_held? hh hc] at hs
      cases hs

/-- What has ended stays so. -/
def Lasts (s t : System) : Prop :=
  ∀ r, r < s.transactions.size → (s.tx r).status.isTerminal = true →
    (t.tx r).status.isTerminal = true

/-- An operation of a context. -/
lemma Associated.touches (h : Associated s cs) (hk : cs[k]? = some (some c)) {c' : Context}
    (ht : c.Touches s c' t) (hfinal : Lasts s t) : Associated t (cs.set k (some c')) := by
  cases ht with
  | nothing timeout => exact h.timeout hk timeout
  | @began r u hh hb ho =>
    -- what is begun is owned by nobody, and is then claimed as any other transaction
    have hu : Associated u cs := h.keepsOwners (System.keepsOwners_begin hb) fun q hq hs => by
      rw [System.tx_begin hb hq]
      exact hs
    have hh' : c.held? u = none := by
      rw [Context.held?_congr fun q hq => System.tx_begin hb (h.owns k c q hk hq).1]
      exact hh
    rw [System.modifyTx_congr (g := fun _ => { u.tx r with owner := some c.task }) rfl]
    refine hu.claim hk hh' ?_ (Transaction.claim_of_none ho)
    obtain ⟨-, rfl, timeout, rfl⟩ := System.begin_ok hb
    exact (System.size_push s timeout).symm ▸ Nat.lt_succ_self _
  | claimed hh hs hx =>
    exact h.claim hk hh (System.lt_size_of_isTerminal_eq_false hs) hx
  | released hr =>
    refine h.release hk hr ?_
    rintro d ⟨⟩
    exact ⟨rfl, rfl⟩
  | @marked r why x hx =>
    have hm := System.keepsOwners_modifyTx (s := s) (r := r) (f := fun _ => x)
      (Transaction.unconcerned_markRollbackOnly hx).owner
    exact (h.keepsOwners hm hfinal).timeout hk c.timeout

/-- A context completes what it holds. -/
lemma Associated.enter (h : Associated s cs) (hk : cs[k]? = some (some c)) (hr : c.current = some r)
    (how : Ending) :
    c.enter how s =
      ({ c with current := none }, how.proc c.manager r (s.modifyTx r (·.release c.task))) := by
  rw [Context.enter, Context.takeOwned_of_owner _ hr (h.owns k c r hk hr).2]

lemma Reachable.lasts {M M' : Machine} (hM : M.Reachable) (hs : Step M M') :
    Lasts M.system M'.system := by
  intro r hr ht
  rw [(hM.path hr (.single hs)).eq_of_final (Status.next_eq_nil ht)]
  exact ht

lemma Associated.step {M M' : Machine} (hM : M.Reachable) (h : Associated M.system M.contexts)
    (hs : Step M M') : Associated M'.system M'.contexts := by
  have hfinal : Lasts M.system M'.system := hM.lasts hs
  cases hs with
  | operate o => exact h.keepsOwners (o.touches_apply M.system).keepsOwners hfinal
  | openContext m => exact h.openContext m
  | useContext hk o _ => exact h.touches hk (o.touches_apply _ M.system) hfinal
  | @dropContext k c hk =>
    cases hr : c.current with
    | none =>
      have hdrop : c.drop M.system = M.system := by rw [Context.drop, Context.suspend, hr]
      dsimp only
      rw [hdrop]
      exact h.drop hk hr
    | some r =>
      have hdrop : c.drop M.system = M.system.modifyTx r (·.release c.task) := by
        rw [Context.drop, Context.suspend, hr]
      dsimp only
      rw [hdrop]
      exact h.release hk hr nofun
  | request how m hr =>
    dsimp only
    rw [(station_proc how m rfl).1]
    exact h
  | @requestWithin how k c r hk hr hlt =>
    dsimp only
    -- a request from within a context first lets the transaction go
    rw [h.enter hk hr how, (station_proc how c.manager rfl).1]
    refine h.release hk hr ?_
    rintro d ⟨⟩
    exact ⟨rfl, rfl⟩
  | @answer i x s q next hi hp a =>
    obtain ⟨owner, hsound⟩ := hM.sound
    rcases hsound.answer hi hp a with ⟨hl, -⟩ | ⟨-, htake, -⟩ | ⟨-, ⟨c, g, hk, -⟩, hacts⟩
    · exact h.keepsOwners hl.keepsOwners hfinal
    · refine h.keepsOwners ?_ hfinal
      dsimp only
      rw [htake]
      exact System.keepsOwners_take M.system x.tx
    · obtain ⟨g', hg, -⟩ := hacts c g hk
      exact h.keepsOwners hg.keepsOwners hfinal

lemma Reachable.associated {M : Machine} (hM : M.Reachable) : Associated M.system M.contexts := by
  refine hM.invariant (P := fun M => Associated M.system M.contexts) (fun clock seed => ?_)
    fun _ _ hM h hs => h.step hM hs
  refine ⟨nofun, nofun, nofun, fun r task ho _ => ?_⟩
  rw [System.owner_of_size_le (Nat.zero_le r)] at ho
  cases ho

/-- A context and its current transaction belong to each other, and the errors that deny it do not
come up. A begin or a resumption that fails changes nothing. -/
theorem single_owner {M : Machine} (hM : M.Reachable) :
    (∀ (k : Nat) (c : Context) (r : TxRef), M.contexts[k]? = some (some c) → c.current = some r →
      (M.system.tx r).owner = some c.task) ∧
    (∀ (k k' : Nat) (c c' : Context) (r : TxRef), M.contexts[k]? = some (some c) →
      M.contexts[k']? = some (some c') → c.current = some r → c'.current = some r → k = k') ∧
    (∀ (r : TxRef) (task : TaskId), (M.system.tx r).owner = some task →
      (M.system.tx r).status.isTerminal = false → ∃ (k : Nat) (c : Context),
        M.contexts[k]? = some (some c) ∧ c.task = task ∧ c.current = some r) ∧
    ∀ (k : Nat) (c : Context), M.contexts[k]? = some (some c) →
      (∀ call id, c.takeOwned call M.system ≠ .error (.illegalState (.notOwner call id))) ∧
      (∀ id owner, c.begin M.system ≠ .error (.system (.freshAlreadyOwned id owner))) ∧
      (∀ e, c.begin M.system = .error e →
        ContextOperation.begin.apply c M.system = (c, M.system)) ∧
      ∀ r e, c.resume r M.system = .error e →
        (ContextOperation.resume r).apply c M.system = (c, M.system) := by
  have h := hM.associated
  refine ⟨fun k c r hk hr => (h.owns k c r hk hr).2, ?_, h.held, fun k c hk => ⟨?_, ?_, ?_, ?_⟩⟩
  · intro k k' c c' r hk hk' hr hr'
    have hc := (h.owns k c r hk hr).2
    have hc' := (h.owns k' c' r hk' hr').2
    exact h.distinct k k' c c' hk hk' (Option.some.inj (hc.symm.trans hc'))
  · intro call id he
    cases hr : c.current with
    | none => simp [Context.takeOwned, hr] at he
    | some r =>
      rw [Context.takeOwned_of_owner call hr (h.owns k c r hk hr).2] at he
      cases he
  · intro id owner he
    rcases c.begin_cases M.system with ⟨t, -, hb⟩ | ⟨e, hb, he'⟩ | ⟨r, t, -, -, -, hb⟩
    · rw [hb] at he
      cases he
    · rw [he', (System.begin_eq_error_iff.mp hb).2] at he
      cases he
    · rw [hb] at he
      cases he
  · intro e he
    rw [ContextOperation.apply, he]
  · intro r e he
    rw [ContextOperation.apply, he]

/-- A task begins a transaction and lets it go, and another task takes it. -/
def handedOver : Machine :=
  let opened := (((initial 0 0).operate (.addManager {} 0)).openContext 0).openContext 0
  (((opened.useContext 0 .begin).useContext 0 .suspend).useContext 1 (.resume 0))

theorem single_owner_handedOver :
    handedOver.Reachable ∧ ∃ c, handedOver.contexts[1]? = some (some c) ∧ c.current = some 0 ∧
      (handedOver.system.tx 0).owner = some c.task ∧
      (∀ k' c', handedOver.contexts[k']? = some (some c') → c'.current = some 0 → 1 = k') ∧
      ∀ call id,
        c.takeOwned call handedOver.system ≠ .error (.illegalState (.notOwner call id)) := by
  have hopened :=
    (((reachable_initial 0 0).operate (.addManager {} 0)).openContext 0).openContext 0
  have hM : handedOver.Reachable :=
    ((hopened.useContext 0 (o := .begin) trivial).useContext 0 (o := .suspend) trivial).useContext 1
      (o := .resume 0) (show 0 < _ by decide)
  let c : Context := { manager := 0, task := ⟨2⟩, current := some 0 }
  have hc : handedOver.contexts[1]? = some (some c) := by decide
  obtain ⟨howns, hone, -, hlive⟩ := single_owner hM
  exact ⟨hM, c, hc, rfl, howns 1 c 0 hc rfl, fun k' c' hk' hr' => hone 1 k' c c' 0 hc hk' rfl hr',
    (hlive 1 c hc).1⟩

end Machine

end TwoPhaseCommit
