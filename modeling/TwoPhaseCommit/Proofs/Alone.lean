import TwoPhaseCommit.Proofs.Erasure

/-!
# A transaction among others, and alone

Of two systems the first may hold any number of transactions, and the second holds none but one of
them, under another name (`System.Alone`). Whatever is done about that transaction can be done in
both, be it by an operation or by an operation of a context, and the second system still holds the
transaction of the first.
-/

namespace TwoPhaseCommit

/-! ### Ids -/

/-- No transaction has the id that stands for none. -/
lemma TxId.mint_ne_nil (seed n : Nat) : mint seed n ≠ nil := by
  intro h
  have hversion := congrArg version h
  simp [version, mint, nil] at hversion
  omega

/-- Transactions that are new have their ids from the seed. -/
structure System.Mints (s t : System) : Prop where
  seed : t.seed = s.seed
  fresh : ∀ r, s.transactions.size ≤ r → r < t.transactions.size → (t.tx r).id = .mint s.seed r

section Mints

variable {s t u : System} {m : ManagerRef} {r : TxRef}

lemma System.mints_of_size_eq (hs : t.seed = s.seed)
    (h : t.transactions.size = s.transactions.size) : s.Mints t :=
  ⟨hs, fun _ h₁ h₂ => absurd (h ▸ h₂) h₁.not_gt⟩

lemma System.mints_begin {timeout : Option Duration} (h : s.begin m timeout = .ok (r, t)) :
    s.Mints t := by
  obtain ⟨-, -, timeout', rfl⟩ := System.begin_ok h
  refine ⟨rfl, fun q h₁ h₂ => ?_⟩
  rw [System.eq_size_of_lt_push h₁ h₂, System.tx_modifyManager, System.tx_push_self]

lemma System.mints_expireIfDue (s : System) (m : ManagerRef) (r : TxRef) :
    s.Mints (s.expireIfDue m r).2 := by
  unfold System.expireIfDue
  split
  next => exact mints_of_size_eq rfl (System.size_modifyTx ..)
  next => exact mints_of_size_eq rfl rfl

lemma Operation.Touches.mints {o : Operation} (h : Touches s o t) : s.Mints t := by
  cases h with
  | began hb => exact System.mints_begin hb
  | looked m r => exact s.mints_expireIfDue m r
  | nothing => exact System.mints_of_size_eq rfl rfl
  | waited _ => exact System.mints_of_size_eq rfl rfl
  | added _ _ => exact System.mints_of_size_eq rfl rfl
  | _ => exact System.mints_of_size_eq rfl (System.size_modifyTx ..)

lemma Context.Touches.mints {c c' : Context} (h : c.Touches s c' t) : s.Mints t := by
  cases h with
  | nothing => exact System.mints_of_size_eq rfl rfl
  | @began r t hh hb ho =>
    have hbegun := System.mints_begin hb
    refine ⟨hbegun.seed, fun q h₁ h₂ => ?_⟩
    rw [System.size_modifyTx] at h₂
    rw [System.tx_modifyTx]
    split
    next => exact hbegun.fresh q h₁ h₂
    next => exact hbegun.fresh q h₁ h₂
  | _ => exact System.mints_of_size_eq rfl (System.size_modifyTx ..)

lemma Request.Harmless.mints {how : Ending} (h : Harmless m r how s t) : s.Mints t := by
  cases h with
  | nothing => exact System.mints_of_size_eq rfl rfl
  | released _ => exact System.mints_of_size_eq rfl (System.size_modifyTx ..)
  | expired _ _ => exact s.mints_expireIfDue m r

lemma Completion.Acts.mints {c : Completion} {g g' : Diary} (h : c.Acts g s t g') :
    s.Mints t := by
  cases h with
  | moves => exact System.mints_of_size_eq rfl (System.size_modifyTx ..)
  | strikes => exact System.mints_of_size_eq rfl rfl
  | counts => exact System.mints_of_size_eq rfl rfl

end Mints

namespace Machine

variable {M N : Machine}

lemma Reachable.mints (hM : M.Reachable) (h : Step M N) : M.system.Mints N.system := by
  cases hM.alters h with
  | operated o => exact (o.touches_apply M.system).mints
  | opened m hs =>
    rw [hs]
    exact System.mints_of_size_eq rfl rfl
  | used h => exact h.mints
  | harmless h => exact h.mints
  | admitted _ _ hs =>
    rw [hs]
    exact System.mints_of_size_eq rfl (System.size_modifyTx ..)
  | acted _ _ _ _ _ h => exact h.mints

/-- The id of a transaction comes from the seed and from its number. -/
lemma Reachable.minted (hM : M.Reachable) {r : TxRef} (hr : r < M.system.transactions.size) :
    (M.system.tx r).id = .mint M.system.seed r := by
  refine hM.invariant (P := fun M => ∀ r, r < M.system.transactions.size →
    (M.system.tx r).id = .mint M.system.seed r) nofun (fun M N hM h hs r hr => ?_) r hr
  have hmints := hM.mints hs
  rw [hmints.seed]
  by_cases hlt : r < M.system.transactions.size
  · rw [← h r hlt]
    exact ((hM.grows (.single hs)).grows r hlt).id
  · exact hmints.fresh r (not_lt.mp hlt) hr

lemma Reachable.seed_perform (hM : M.Reachable) (a : Act) :
    (M.perform a).system.seed = M.system.seed := by
  rcases M.perform_cases a with h | h
  · rw [h]
  · exact (hM.mints h).seed

lemma Reachable.seed_run (hM : M.Reachable) (as : List Act) :
    (M.run as).system.seed = M.system.seed := by
  induction as generalizing M with
  | nil => rfl
  | cons a as ih => rw [run_cons, ih (hM.perform a), hM.seed_perform]

end Machine

/-! ### Two systems -/

namespace System

variable {id : TxId} {r : TxRef} {s t : System} {m : ManagerRef}

/-- The second system has no transaction but the one that is the transaction `r` of the first, once
that was begun. -/
inductive Alone (id : TxId) (r : TxRef) (s t : System) : Prop
  | before (h : Level r 0 s t) (hs : s.transactions.size ≤ r) (ht : t.transactions.size = 0)
    (hactive : ∀ m, (t.manager m).active = 0)
  | during (h : Alike id r 0 s t) (ht : t.transactions.size = 1)

lemma Alone.level (h : Alone id r s t) : Level r 0 s t := by
  cases h with
  | before h => exact h
  | during h => exact h.toLevel

lemma Alone.alike (h : Alone id r s t) (hr : r < s.transactions.size) : Alike id r 0 s t := by
  cases h with
  | before _ hs => exact absurd hr hs.not_gt
  | during h => exact h

/-- Once the transaction was begun there is nothing else. -/
lemma Alone.size_eq (h : Alone id r s t) (hr : r < s.transactions.size) :
    t.transactions.size = 1 := by
  cases h with
  | before _ hs => exact absurd hr hs.not_gt
  | during _ ht => exact ht

lemma Alone.begun_iff (h : Alone id r s t) :
    0 < t.transactions.size ↔ r < s.transactions.size := by
  cases h with
  | before _ hs ht =>
    rw [ht]
    exact iff_of_false (Nat.lt_irrefl 0) hs.not_gt
  | during h => exact iff_of_true h.right h.left

/-- What is not about `r` is of no account. -/
lemma Alone.stays {u : System} (h : Alone id r s t) (hs : s.Stays r u) : Alone id r u t := by
  have hl : Level r 0 u t := hs.toLevel.symm.trans h.level
  cases h with
  | before _ hle ht hactive =>
    exact .before hl (not_lt.mp fun hr => hle.not_gt (hs.begun.mp hr)) ht hactive
  | during h ht => exact .during ⟨hl, hs.begun.mpr h.left, h.right, hs.tx.trans h.tx⟩ ht

/-! #### Operations -/

lemma modifyTx_of_size_le (f : Transaction → Transaction) (h : s.transactions.size ≤ r) :
    s.modifyTx r f = s := by
  have ha : s.transactions.modify r f = s.transactions := by
    apply Array.ext (by simp)
    intro i h₁ h₂
    rw [Array.getElem_modify, if_neg]
    rintro rfl
    exact h.not_gt h₂
  rw [modifyTx, ha]

lemma changeTx_of_size_le (x : Except TxError Transaction) (h : s.transactions.size ≤ r) :
    s.changeTx r x = s := by
  cases x with
  | error e => rfl
  | ok t => exact modifyTx_of_size_le _ h

lemma expireIfDue_of_size_le (m : ManagerRef) (h : s.transactions.size ≤ r) :
    (s.expireIfDue m r).2 = s := by
  have hd : (s.tx r).isDue s.clock = false := by
    rw [tx_of_size_le h]
    rfl
  simp [expireIfDue, hd]

/-- What is done to the transaction in the one system is done to it in the other. -/
lemma Alone.changeTx (h : Alone id r s t) (f : Transaction → Except TxError Transaction)
    (hf : ∀ x : Transaction, f (x.named id) = Transaction.renamed id (f x)) :
    Alone id r (s.changeTx r (f (s.tx r))) (t.changeTx 0 (f (t.tx 0))) := by
  cases h with
  | before h hs ht hactive =>
    rw [changeTx_of_size_le _ hs, changeTx_of_size_le _ ht.le]
    exact .before h hs ht hactive
  | during h ht =>
    rw [h.tx, hf]
    cases f (t.tx 0) with
    | error e => exact .during h ht
    | ok x =>
      exact .during (h.modifyTx fun _ => rfl) ((size_modifyTx ..).trans ht)

lemma Alone.modifyTx (h : Alone id r s t) {f g : Transaction → Transaction}
    (hf : ∀ x : Transaction, f (x.named id) = (g x).named id) :
    Alone id r (s.modifyTx r f) (t.modifyTx 0 g) := by
  cases h with
  | before h hs ht hactive =>
    rw [modifyTx_of_size_le _ hs, modifyTx_of_size_le _ ht.le]
    exact .before h hs ht hactive
  | during h ht => exact .during (h.modifyTx hf) ((size_modifyTx ..).trans ht)

lemma Alone.expireIfDue (h : Alone id r s t) (m : ManagerRef) :
    Alone id r (s.expireIfDue m r).2 (t.expireIfDue m 0).2 := by
  cases h with
  | before h hs ht hactive =>
    rw [expireIfDue_of_size_le m hs, expireIfDue_of_size_le m ht.le]
    exact .before h hs ht hactive
  | during h ht =>
    refine .during (h.expireIfDue m) ?_
    unfold System.expireIfDue
    split
    · exact (size_modifyTx ..).trans ht
    · exact ht

/-- What surrounds transactions changes, and the managers that there were do not. -/
lemma Alone.of_level {s' t' : System} (h : Alone id r s t) (hl : Level r 0 s' t')
    (hs : s'.transactions = s.transactions) (ht : t'.transactions = t.transactions)
    (hactive : (∀ m, (t.manager m).active = 0) → ∀ m, (t'.manager m).active = 0) :
    Alone id r s' t' := by
  cases h with
  | before h hle hz ha => exact .before hl (hs ▸ hle) (ht ▸ hz) (hactive ha)
  | during h hone => exact .during (h.of_level hl hs ht) (ht ▸ hone)

lemma manager_addManager (s : System) (config : CoordinatorConfig) (log : LogRef)
    (m : ManagerRef) :
    (s.addManager config log).2.manager m =
      if m = s.managers.size then { config, log } else s.manager m := by
  simp only [addManager, manager, Array.getD_eq_getD_getElem?, Array.getElem?_push]
  split <;> rfl

lemma Alone.addManager (h : Alone id r s t) (config : CoordinatorConfig) (log : LogRef) :
    Alone id r (s.addManager config log).2 (t.addManager config log).2 := by
  have hl := h.level
  refine h.of_level ⟨hl.clock, hl.seed, hl.nextTask, ?_, fun m => ?_⟩ rfl rfl fun ha m => ?_
  · simpa [System.addManager] using hl.size
  · rw [manager_addManager, manager_addManager, hl.size]
    split
    · exact ⟨rfl, rfl, rfl⟩
    · exact hl.manager m
  · rw [manager_addManager]
    split
    · rfl
    · exact ha m

/-- The timeout that a transaction is begun with. -/
def timeoutFor (s : System) (m : ManagerRef) (timeout : Option Duration) : Option Duration :=
  match timeout with
  | some d => if d.isZero then none else some d
  | none => (s.manager m).config.timeout?

lemma begin_eq (s : System) (m : ManagerRef) (timeout : Option Duration) :
    s.begin m timeout =
      if (s.manager m).active < (s.manager m).config.maxActive then
        .ok (s.transactions.size,
          (s.push (s.timeoutFor m timeout)).modifyManager m (·.enroll s.transactions.size))
      else .error (.resourceExhausted (s.manager m).config.maxActive) := rfl

/-- If the transaction can be begun among others, it can be begun alone. -/
lemma Alone.begin {u : System} (h : Alone id r s t) (hid : id = .mint s.seed r)
    {timeout : Option Duration} (hb : s.begin m timeout = .ok (r, u)) :
    ∃ v, t.begin m timeout = .ok (0, v) ∧ Alone id r u v := by
  obtain ⟨hroom, hr, -⟩ := begin_ok hb
  cases h with
  | during h => exact absurd h.left (hr ▸ Nat.lt_irrefl _)
  | before h hs ht hactive =>
    have hm := h.manager m
    -- there is more room where there are no others
    rw [begin_eq, if_pos hroom] at hb
    rw [begin_eq, if_pos (by rw [hactive m, hm.config]; omega), ht]
    cases hb
    have htimeout : t.timeoutFor m timeout = s.timeoutFor m timeout := by
      simp only [timeoutFor, hm.config]
    have hl : Level s.transactions.size 0 (s.push (s.timeoutFor m timeout))
        (t.push (t.timeoutFor m timeout)) :=
      ⟨h.clock, h.seed, h.nextTask, h.size, h.manager⟩
    refine ⟨_, rfl, .during ⟨hl.modifyManager ⟨hm.config, hm.log, ?_⟩, ?_, ?_, ?_⟩ ?_⟩
    · change (List.count 0 (_ ++ [0]) : Nat) = List.count _ (_ ++ [_])
      rw [List.count_append, List.count_append, List.count_singleton_self,
        List.count_singleton_self]
      exact congrArg (· + 1) hm.count
    · exact (size_push s _).symm ▸ Nat.lt_succ_self _
    · exact (size_push t _).symm ▸ Nat.succ_pos _
    · have hpushed := tx_push_self t (t.timeoutFor m timeout)
      rw [ht] at hpushed
      rw [tx_modifyManager, tx_modifyManager, tx_push_self, hpushed, htimeout, h.clock, hid]
      rfl
    · exact (size_push t _).trans (congrArg (· + 1) ht)

lemma inFlight?_mint_eq_none (m : ManagerRef) (ht : t.transactions.size = 0) :
    t.inFlight? m (.mint t.seed 0) = none := by
  refine List.find?_eq_none.mpr fun q _ hq => ?_
  rw [tx_of_size_le (ht.le.trans (Nat.zero_le q))] at hq
  exact TxId.mint_ne_nil _ _ (beq_iff_eq.mp hq).symm

/-- The only transaction is found by its id where it is listed. -/
lemma inFlight?_mint (ht : t.transactions.size = 1) (hid : (t.tx 0).id = .mint t.seed 0)
    (hm : 0 ∈ (t.manager m).registered) : t.inFlight? m (.mint t.seed 0) = some 0 := by
  unfold inFlight?
  cases hf : (t.manager m).registered.find? fun q => (t.tx q).id == TxId.mint t.seed 0 with
  | none =>
    have hne := List.find?_eq_none.mp hf 0 hm
    rw [hid, beq_self_eq_true] at hne
    exact absurd rfl hne
  | some q =>
    have hq : (t.tx q).id = .mint t.seed 0 := by simpa using List.find?_some hf
    by_cases hlt : q < t.transactions.size
    · rw [ht] at hlt
      rw [Nat.lt_one_iff.mp hlt]
    · rw [tx_of_size_le (not_lt.mp hlt)] at hq
      exact absurd hq.symm (TxId.mint_ne_nil _ _)

end System

lemma Operation.force_apply {s : System} {m : ManagerRef} {id : TxId} {q : TxRef}
    (hq : s.inFlight? m id = some q) :
    (Operation.force m id).apply s = s.changeTx q ((s.tx q).markRollbackOnly .forced) := by
  rw [apply, System.force, hq]
  cases hx : (s.tx q).markRollbackOnly .forced with
  | error e => simp only [hx, bind, Except.bind, System.changeTx]
  | ok x =>
    simp only [hx, bind, Except.bind, System.changeTx]
    rfl

/-- The transaction is found by its id among others, and so it is alone. -/
lemma Operation.alone_force {id i : TxId} {r : TxRef} {s t : System} {m : ManagerRef}
    (h : s.Alone id r t) (ht : 0 < t.transactions.size → (t.tx 0).id = .mint t.seed 0)
    (hr : s.inFlight? m i = some r) :
    System.Alone id r ((force m i).apply s) ((force m (.mint s.seed 0)).apply t) := by
  have hl := h.level
  rw [force_apply hr, ← hl.seed]
  cases h with
  | before h hs hz ha =>
    have hf : (force m (.mint t.seed 0)).apply t = t := by
      rw [apply, System.force, System.inFlight?_mint_eq_none m hz]
    rw [hf, System.changeTx_of_size_le _ hs]
    exact .before h hs hz ha
  | during h hone =>
    have hmem : 0 ∈ (t.manager m).registered := by
      rw [← List.count_pos_iff, (hl.manager m).count, List.count_pos_iff]
      exact List.mem_of_find?_eq_some hr
    rw [force_apply (System.inFlight?_mint hone (ht h.right) hmem)]
    exact System.Alone.changeTx (.during h hone) (·.markRollbackOnly .forced)
      fun x => x.markRollbackOnly_named _

/-- An operation that is about the transaction. -/
lemma Operation.alone_apply {id : TxId} {r : TxRef} {s t : System} (h : s.Alone id r t)
    (hid : id = .mint s.seed r) (ht : 0 < t.transactions.size → (t.tx 0).id = .mint t.seed 0)
    {o o' : Operation} (ho : o.own? r s = some o') :
    System.Alone id r (o.apply s) (o'.apply t) := by
  -- what is left of an operation on one transaction is the operation, if it is this one
  have hq : ∀ {q : TxRef} {o : Operation},
      (if q = r then some o else none) = some o' → q = r ∧ o = o' := by
    intro q o h
    split at h
    next hq => exact ⟨hq, Option.some.inj h⟩
    next => cases h
  have hl := h.level
  cases o with
  | wait nanos =>
    cases ho
    exact h.of_level ⟨congrArg (· + nanos) hl.clock, hl.seed, hl.nextTask, hl.size, hl.manager⟩
      rfl rfl fun ha => ha
  | addManager config log =>
    cases ho
    exact h.addManager config log
  | begin m timeout =>
    rw [own?] at ho
    split at ho
    next hr =>
      cases ho
      cases hb : s.begin m timeout with
      | error e => simp [hb, Except.toOption] at hr
      | ok x =>
        obtain ⟨q, u⟩ := x
        obtain rfl : q = r := by simpa [hb, Except.toOption] using hr
        obtain ⟨v, hv, hA⟩ := h.begin hid hb
        rw [apply, apply, hb, hv]
        exact hA
    next => cases ho
  | enlist q a =>
    obtain ⟨rfl, rfl⟩ := hq ho
    exact h.changeTx (fun x => (x.enlist a).map (·.2)) fun x => x.enlist_named a
  | delist q a flag =>
    obtain ⟨rfl, rfl⟩ := hq ho
    exact h.changeTx (fun x => (x.delist a flag).map (·.2)) fun x => x.delist_named a flag
  | register q c interposed =>
    obtain ⟨rfl, rfl⟩ := hq ho
    exact h.changeTx (·.register c interposed) fun x => x.register_named c interposed
  | mark q =>
    obtain ⟨rfl, rfl⟩ := hq ho
    exact h.changeTx (·.markRollbackOnly _) fun x => x.markRollbackOnly_named _
  | force m i =>
    rw [own?] at ho
    split at ho
    next hr =>
      cases ho
      exact alone_force h ht hr
    next => cases ho
  | expire m q =>
    obtain ⟨rfl, rfl⟩ := hq ho
    exact h.expireIfDue m

/-! ### Two contexts -/

/-- The second context holds the only transaction if the first holds `r`, and otherwise only if that
has ended. -/
structure Context.Alike (r : TxRef) (s : System) (c c' : Context) : Prop where
  manager : c'.manager = c.manager
  task : c'.task = c.task
  timeout : c'.timeout = c.timeout
  holds : c.current = some r → c'.current = some 0
  held : ∀ q, c'.current = some q →
    q = 0 ∧ (c.current = some r ∨ (s.tx r).status.isTerminal = true)

namespace Context

variable {id : TxId} {r : TxRef} {s t : System} {c c' d : Context}

/-- The one context has done something that is not about `r`. -/
lemma Alike.lets (h : c.Alike r s c') (hd : c.Lets r s d) (ht : t.tx r = s.tx r) :
    d.Alike r t c' where
  manager := h.manager.trans hd.manager.symm
  task := h.task.trans hd.task.symm
  timeout := h.timeout.trans hd.timeout.symm
  holds hr := h.holds (hd.holds hr)
  held q hq := by
    obtain ⟨hzero, hr⟩ := h.held q hq
    rw [ht]
    exact ⟨hzero, hr.elim hd.lets .inr⟩

/-- Both hold the transaction now. -/
lemma Alike.hold (h : c.Alike r s c') (t : System) :
    Alike r t { c with current := some r } { c' with current := some 0 } :=
  ⟨h.manager, h.task, h.timeout, fun _ => rfl, fun _ hq => ⟨(Option.some.inj hq).symm, .inl rfl⟩⟩

/-- Neither holds it any more. -/
lemma Alike.letGo (h : c.Alike r s c') (t : System) :
    Alike r t { c with current := none } { c' with current := none } :=
  ⟨h.manager, h.task, h.timeout, nofun, nofun⟩

/-- What holds `r` is alike whatever becomes of that. -/
lemma Alike.of_holds (h : c.Alike r s c') (hr : c.current = some r) (t : System) :
    c.Alike r t c' :=
  ⟨h.manager, h.task, h.timeout, h.holds, fun q hq => ⟨(h.held q hq).1, .inl hr⟩⟩

/-- What can take `r` up, among others, can do so alone. -/
lemma Alike.current_eq_none (h : c.Alike r s c') (hh : c.held? s = none)
    (hr : (s.tx r).status.isTerminal = false) : c'.current = none := by
  cases hq : c'.current with
  | none => rfl
  | some q =>
    have hterminal : (s.tx r).status.isTerminal = true :=
      (h.held q hq).2.elim (isTerminal_of_held? hh) fun ht => ht
    rw [hr] at hterminal
    cases hterminal

lemma held?_of_current_eq_none (h : c.current = none) (s : System) : c.held? s = none := by
  simp [held?, h]

lemma begin_of_ok {m : ManagerRef} {q : TxRef} (hm : c.manager = m) (hh : c.held? s = none)
    (hb : s.begin m c.timeout = .ok (q, t)) :
    c.begin s = .ok (q, { c with current := some q },
      t.modifyTx q fun x => { x with owner := some c.task }) := by
  subst hm
  rcases c.begin_cases s with ⟨x, hx, -⟩ | ⟨e, he, -⟩ | ⟨q', t', -, hb', -, h⟩
  · rw [hh] at hx
    cases hx
  · rw [hb] at he
    cases he
  · rw [hb] at hb'
    cases hb'
    exact h

/-- The mark changes the transaction that is held. -/
lemma mark_apply {q : TxRef} (hq : c.current = some q) (s : System) :
    ContextOperation.mark.apply c s =
      (c, s.changeTx q ((s.tx q).markRollbackOnly .markedRollbackOnly)) := by
  rw [ContextOperation.apply, setRollbackOnly, hq]
  dsimp only
  cases (s.tx q).markRollbackOnly .markedRollbackOnly with
  | error e => rfl
  | ok x => rfl

end Context

namespace System

variable {id : TxId} {r : TxRef} {s t u : System} {c c' d : Context}

/-- Before the transaction is begun there is nothing that the second context could hold. -/
lemma Alone.current_eq_none_of_begin {m : ManagerRef} {timeout : Option Duration}
    (h : s.Alone id r t) (howns : ∀ q, c'.current = some q → q < t.transactions.size)
    (hb : s.begin m timeout = .ok (r, u)) : c'.current = none := by
  cases hq : c'.current with
  | none => rfl
  | some q =>
    have hr : r < s.transactions.size := h.begun_iff.mp ((Nat.zero_le q).trans_lt (howns q hq))
    exact absurd hr ((begin_ok hb).2.1 ▸ Nat.lt_irrefl _)

/-- If the transaction can be claimed among others, it can be claimed alone. -/
lemma Alike.claim {q : TxRef} {k : TaskId} {x : Transaction} (h : Alike id r q s t)
    (hx : (s.tx r).claim k = .ok x) : ∃ y, (t.tx q).claim k = .ok y ∧ x = y.named id := by
  rw [h.tx, Transaction.claim_named] at hx
  cases hy : (t.tx q).claim k with
  | error e =>
    rw [hy] at hx
    cases hx
  | ok y =>
    rw [hy] at hx
    cases hx
    exact ⟨y, rfl, rfl⟩

/-- If the transaction can be resumed among others, it can be resumed alone. -/
lemma Alone.resume (h : s.Alone id r t) (hc : c.Alike r s c') (hx : c.resume r s = .ok (d, u)) :
    ∃ d' v, c'.resume 0 t = .ok (d', v) ∧ u.Alone id r v ∧ d.Alike r u d' := by
  obtain ⟨hh, hs, rfl, x, hclaim, rfl⟩ := Context.resume_ok hx
  have halike := h.alike (lt_size_of_isTerminal_eq_false hs)
  rw [← hc.task] at hclaim
  obtain ⟨y, hy, rfl⟩ := halike.claim hclaim
  have hcurrent := hc.current_eq_none hh hs
  have hstatus : (t.tx 0).status.isTerminal = false := by
    rw [halike.tx] at hs
    exact hs
  have hresume : c'.resume 0 t =
      .ok ({ c' with current := some 0 }, t.modifyTx 0 fun _ => y) := by
    simp only [Context.resume, Context.held?_of_current_eq_none hcurrent t, hstatus, hy]
    rfl
  exact ⟨_, _, hresume, h.modifyTx fun _ => rfl, hc.hold _⟩

end System

/-- An operation of a context that is about the transaction. -/
lemma ContextOperation.alone_apply {id : TxId} {r : TxRef} {s t : System} {c c' : Context}
    (h : s.Alone id r t) (hid : id = .mint s.seed r) (hc : c.Alike r s c')
    (howns : ∀ q, c'.current = some q → q < t.transactions.size) {o o' : ContextOperation}
    (ho : o.own? r c s = some o') :
    System.Alone id r (o.apply c s).2 (o'.apply c' t).2 ∧
      (o.apply c s).1.Alike r (o.apply c s).2 (o'.apply c' t).1 := by
  cases o with
  | begin =>
    rw [own?] at ho
    split at ho
    next hr =>
      cases ho
      rcases c.begin_cases s with ⟨x, -, hb⟩ | ⟨e, -, hb⟩ | ⟨q, u, hh, hbegin, -, hb⟩
      · simp [hb, Except.toOption] at hr
      · simp [hb, Except.toOption] at hr
      · obtain rfl : q = r := by simpa [hb, Except.toOption] using hr
        obtain ⟨v, hv, hA⟩ := h.begin hid hbegin
        have hcurrent := h.current_eq_none_of_begin howns hbegin
        rw [← hc.timeout] at hv
        have hb' := Context.begin_of_ok hc.manager (Context.held?_of_current_eq_none hcurrent t) hv
        rw [apply, apply, hb, hb']
        refine ⟨?_, hc.hold _⟩
        dsimp only
        rw [hc.task]
        exact hA.modifyTx fun _ => rfl
    next => cases ho
  | mark =>
    rw [own?] at ho
    split at ho
    next hr =>
      cases ho
      rw [Context.mark_apply hr, Context.mark_apply (hc.holds hr)]
      exact ⟨h.changeTx (·.markRollbackOnly _) fun x => x.markRollbackOnly_named _,
        hc.of_holds hr _⟩
    next => cases ho
  | suspend =>
    rw [own?] at ho
    split at ho
    next hr =>
      cases ho
      rw [apply, apply, Context.suspend_of_some hr, Context.suspend_of_some (hc.holds hr)]
      refine ⟨?_, hc.letGo _⟩
      rw [hc.task]
      exact h.modifyTx fun x => x.release_named _
    next => cases ho
  | resume q =>
    rw [own?] at ho
    split at ho
    next hr =>
      cases ho
      obtain ⟨rfl, hsome⟩ := hr
      cases hx : c.resume q s with
      | error e => simp [hx, Except.toOption] at hsome
      | ok y =>
        obtain ⟨d, u⟩ := y
        obtain ⟨d', v, hresume, hA, hd⟩ := h.resume hc hx
        rw [apply, apply, hx, hresume]
        exact ⟨hA, hd⟩
    next => cases ho
  | setTimeout timeout =>
    cases ho
    exact ⟨h, ⟨hc.manager, hc.task, rfl, hc.holds, hc.held⟩⟩

/-- A context can resume what it is to resume. -/
lemma ContextOperation.refers_of_own? {id : TxId} {r : TxRef} {s t : System} {c : Context}
    (h : s.Alone id r t) {o o' : ContextOperation} (ho : o.own? r c s = some o') :
    o.Refers s ∧ o'.Refers t := by
  cases o with
  | resume q =>
    rw [own?] at ho
    split at ho
    next hr =>
      cases ho
      obtain ⟨rfl, hsome⟩ := hr
      cases hx : c.resume q s with
      | error e => simp [hx, Except.toOption] at hsome
      | ok y =>
        obtain ⟨-, hs, -⟩ := Context.resume_ok hx
        have hlt : q < s.transactions.size := System.lt_size_of_isTerminal_eq_false hs
        exact ⟨hlt, h.begun_iff.mpr hlt⟩
    next => cases ho
  | setTimeout timeout =>
    cases ho
    exact ⟨trivial, trivial⟩
  | _ =>
    rw [own?] at ho
    split at ho
    · cases ho
      exact ⟨trivial, trivial⟩
    · cases ho

end TwoPhaseCommit
