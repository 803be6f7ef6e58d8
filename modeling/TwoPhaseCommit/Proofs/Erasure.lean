import TwoPhaseCommit.Proofs.Association
import TwoPhaseCommit.Proofs.Likeness
import TwoPhaseCommit.Proofs.Program

/-!
# Erasure

Of what a program does, some acts are about a given transaction and the others are not. With the
others erased there is a program with a single transaction (`Machine.own`). What an erased act
leaves alone is all that there is of the transaction (`Machine.Stays`).
-/

namespace TwoPhaseCommit

/-! ### What is about a transaction -/

/-- The operation as it is done to the only transaction, if it is not about another. -/
def Operation.own? (r : TxRef) (s : System) : Operation → Option Operation
  | wait nanos => some (.wait nanos)
  | addManager config log => some (.addManager config log)
  | begin m timeout =>
    if (s.begin m timeout).toOption.map (·.1) = some r then some (.begin m timeout) else none
  | enlist q a => if q = r then some (.enlist 0 a) else none
  | delist q a flag => if q = r then some (.delist 0 a flag) else none
  | register q c interposed => if q = r then some (.register 0 c interposed) else none
  | mark q => if q = r then some (.mark 0) else none
  | force m id => if s.inFlight? m id = some r then some (.force m (.mint s.seed 0)) else none
  | expire m q => if q = r then some (.expire m 0) else none

/-- The same of an operation of a context. A transaction that a context could not resume, for it
held another, is not concerned. -/
def ContextOperation.own? (r : TxRef) (c : Context) (s : System) :
    ContextOperation → Option ContextOperation
  | begin => if (c.begin s).toOption.map (·.1) = some r then some .begin else none
  | mark => if c.current = some r then some .mark else none
  | suspend => if c.current = some r then some .suspend else none
  | resume q => if q = r ∧ (c.resume q s).toOption.isSome then some (.resume 0) else none
  | setTimeout timeout => some (.setTimeout timeout)

namespace Machine

/-- The requests to complete a transaction. -/
def on (M : Machine) (r : TxRef) : List Request := M.requests.filter (·.tx = r)

/-- The number of a request among those about the same transaction. -/
def rank (M : Machine) (r : TxRef) (i : Nat) : Nat :=
  ((M.requests.take i).filter (·.tx = r)).length

/-- The transaction that a context holds. -/
def held? (M : Machine) (k : Nat) : Option TxRef := (M.context? k).bind (·.current)

end Machine

/-- The act as it is done to the only transaction, if it is not about another. -/
def Act.own? (r : TxRef) (M : Machine) : Act → Option Act
  | operate o => (o.own? r M.system).map .operate
  | openContext m => some (.openContext m)
  | useContext k o => (M.context? k).bind fun c => (o.own? r c M.system).map (.useContext k)
  | dropContext k => if M.held? k = some r then some (.dropContext k) else none
  | request how m q => if q = r then some (.request how m 0) else none
  | requestWithin how k => if M.held? k = some r then some (.requestWithin how k) else none
  | answer i reply =>
    if M.requests[i]?.map (·.tx) = some r then some (.answer (M.rank r i) reply) else none

/-- What is left of some acts when those about other transactions are erased. -/
def Machine.own (r : TxRef) : Machine → List Act → List Act
  | _, [] => []
  | M, a :: as => (a.own? r M).toList ++ own r (M.perform a) as

/-! ### What an erased act leaves alone -/

/-- A step that is not about `r`. -/
structure System.Stays (r : TxRef) (s t : System) : Prop extends System.Level r r s t where
  begun : r < t.transactions.size ↔ r < s.transactions.size
  tx : t.tx r = s.tx r

namespace System

variable {r q : TxRef} {s t u : System} {m : ManagerRef}

@[refl] lemma Level.refl (r : TxRef) (s : System) : Level r r s s :=
  ⟨rfl, rfl, rfl, rfl, fun _ => ⟨rfl, rfl, rfl⟩⟩

lemma Level.trans {r' : TxRef} (h : Level r q s t) (h' : Level q r' t u) : Level r r' s u where
  clock := h'.clock.trans h.clock
  seed := h'.seed.trans h.seed
  nextTask := h'.nextTask.trans h.nextTask
  size := h'.size.trans h.size
  manager m := {
    config := (h'.manager m).config.trans (h.manager m).config
    log := (h'.manager m).log.trans (h.manager m).log
    count := (h'.manager m).count.trans (h.manager m).count }

lemma Level.symm (h : Level r q s t) : Level q r t s where
  clock := h.clock.symm
  seed := h.seed.symm
  nextTask := h.nextTask.symm
  size := h.size.symm
  manager m := ⟨(h.manager m).config.symm, (h.manager m).log.symm, (h.manager m).count.symm⟩

@[refl] lemma Stays.refl (r : TxRef) (s : System) : s.Stays r s := ⟨.refl r s, Iff.rfl, rfl⟩

lemma Stays.trans (h : s.Stays r t) (h' : t.Stays r u) : s.Stays r u :=
  ⟨h.toLevel.trans h'.toLevel, h'.begun.trans h.begun, h'.tx.trans h.tx⟩

lemma stays_modifyTx (hq : q ≠ r) (f : Transaction → Transaction) : s.Stays r (s.modifyTx q f) where
  toLevel := ⟨rfl, rfl, rfl, rfl, fun _ => ⟨rfl, rfl, rfl⟩⟩
  begun := by rw [size_modifyTx]
  tx := tx_modifyTx_of_ne f hq.symm

/-- The number of times that a manager lists `r` does not change. -/
lemma stays_modifyManager {f : Manager → Manager}
    (hf : (s.manager m).Level r r (f (s.manager m))) : s.Stays r (s.modifyManager m f) where
  toLevel := by
    refine ⟨rfl, rfl, rfl, by simp [modifyManager], fun k => ?_⟩
    rw [manager_modifyManager]
    split
    next hk =>
      rw [hk.1]
      exact hf
    next => exact ⟨rfl, rfl, rfl⟩
  begun := Iff.rfl
  tx := rfl

lemma stays_modifyStats (f : Stats → Stats) : s.Stays r (s.modifyStats m f) :=
  stays_modifyManager ⟨rfl, rfl, rfl⟩

/-- Another transaction begins. -/
lemma stays_begin {timeout : Option Duration} (h : s.begin m timeout = .ok (q, t)) (hq : q ≠ r) :
    s.Stays r t := by
  obtain ⟨-, rfl, timeout', rfl⟩ := begin_ok h
  have hbegun : r < (s.push timeout').transactions.size ↔ r < s.transactions.size := by
    rw [size_push, Nat.lt_succ_iff_lt_or_eq, or_iff_left hq.symm]
  have hpush : s.Stays r (s.push timeout') := by
    refine ⟨⟨rfl, rfl, rfl, rfl, fun _ => ⟨rfl, rfl, rfl⟩⟩, hbegun, ?_⟩
    by_cases hr : r < s.transactions.size
    · exact tx_push_of_lt timeout' hr
    · rw [tx_of_size_le (not_lt.mp hr), tx_of_size_le (not_lt.mp fun h => hr (hbegun.mp h))]
  refine hpush.trans (stays_modifyManager ⟨rfl, rfl, ?_⟩)
  simp [Manager.enroll, hq]

lemma stays_expireIfDue (hq : q ≠ r) : s.Stays r (s.expireIfDue m q).2 := by
  unfold expireIfDue
  split
  next =>
    dsimp only
    exact (stays_modifyTx hq _).trans (stays_modifyStats _)
  next => exact .refl r s

end System

open TwoPhaseCommit.System (stays_modifyTx stays_modifyManager stays_modifyStats stays_begin
  stays_expireIfDue)

variable {r : TxRef} {s t : System}

lemma Completion.stays_unregister {c : Completion} (hc : c.tx ≠ r) (outcome : Status)
    (s : System) : s.Stays r (c.unregister outcome s) := by
  refine stays_modifyManager ?_
  split
  next =>
    refine ⟨rfl, rfl, ?_⟩
    exact List.count_erase_of_ne hc.symm
  next => exact ⟨rfl, rfl, rfl⟩

lemma Completion.Acts.stays {c : Completion} {g g' : Diary} (h : c.Acts g s t g')
    (hc : c.tx ≠ r) : s.Stays r t := by
  cases h with
  | moves hs h => exact stays_modifyTx hc _
  | strikes h => exact stays_unregister hc _ s
  | counts h => exact stays_modifyStats _

lemma Request.Looks.stays {m : ManagerRef} {q : TxRef} {how : Ending} (h : Looks m q how s t)
    (hq : q ≠ r) : s.Stays r t := by
  cases h with
  | nothing => exact .refl r s
  | expired _ => exact stays_expireIfDue hq

lemma stays_changeTx {q : TxRef} (hq : q ≠ r) (x : Except TxError Transaction) :
    s.Stays r (s.changeTx q x) := by
  cases x with
  | error e => exact .refl r s
  | ok t => exact stays_modifyTx hq _

/-- An operation that is not about `r`. -/
lemma Operation.stays_apply {o : Operation} (h : o.own? r s = none) : s.Stays r (o.apply s) := by
  have hne : ∀ {q : TxRef} {o : Operation}, (if q = r then some o else none) = none → q ≠ r :=
    fun h hq => by rw [if_pos hq] at h; cases h
  cases o with
  | wait nanos => cases h
  | addManager config log => cases h
  | begin m timeout =>
    rw [apply]
    cases hb : s.begin m timeout with
    | error e => exact .refl r s
    | ok x =>
      refine stays_begin hb fun hq => ?_
      simp [own?, hb, hq, Except.toOption] at h
  | enlist q a => exact stays_changeTx (hne h) _
  | delist q a flag => exact stays_changeTx (hne h) _
  | register q c interposed => exact stays_changeTx (hne h) _
  | mark q => exact stays_changeTx (hne h) _
  | force m id =>
    -- the id may be that of another transaction, or of none
    have hr : s.inFlight? m id ≠ some r := by
      intro hr
      simp [own?, hr] at h
    have hf := (Operation.force m id).touches_apply s
    generalize (Operation.force m id).apply s = t at hf ⊢
    cases hf with
    | nothing => exact .refl r s
    | @forced _ _ q _ hq _ =>
      refine stays_modifyTx (fun hqr => hr ?_) _
      rw [hq, hqr]
  | expire m q => exact stays_expireIfDue (hne h)

/-! ### Contexts -/

/-- A context after something that is not about `r`: it may have let go of `r` if that has ended. -/
structure Context.Lets (r : TxRef) (s : System) (c c' : Context) : Prop where
  manager : c'.manager = c.manager
  task : c'.task = c.task
  timeout : c'.timeout = c.timeout
  holds : c'.current = some r → c.current = some r
  lets : c.current = some r → c'.current = some r ∨ (s.tx r).status.isTerminal = true

namespace Context

variable {c : Context}

@[refl] lemma Lets.refl (r : TxRef) (s : System) (c : Context) : c.Lets r s c :=
  ⟨rfl, rfl, rfl, fun h => h, .inl⟩

/-- Another transaction takes the place. -/
lemma lets_of_held? {q : TxRef} (hh : c.held? s = none) (hq : q ≠ r) :
    c.Lets r s { c with current := some q } :=
  ⟨rfl, rfl, rfl, fun h => absurd (Option.some.inj h) hq, fun h =>
    .inr (isTerminal_of_held? hh h)⟩

/-- What is let go is another transaction. -/
lemma lets_none (hc : c.current ≠ some r) : c.Lets r s { c with current := none } :=
  ⟨rfl, rfl, rfl, nofun, fun h => absurd h hc⟩

lemma suspend_of_some {q : TxRef} (hc : c.current = some q) (s : System) :
    c.suspend s = (some q, { c with current := none }, s.modifyTx q (·.release c.task)) := by
  rw [suspend, hc]

lemma suspend_of_none (hc : c.current = none) (s : System) : c.suspend s = (none, c, s) := by
  rw [suspend, hc]

/-- What does not hold `r` and is suspended. -/
lemma stays_suspend (hc : c.current ≠ some r) (s : System) :
    s.Stays r (c.suspend s).2.2 ∧ c.Lets r s (c.suspend s).2.1 := by
  cases hq : c.current with
  | none =>
    rw [suspend_of_none hq]
    exact ⟨.refl r s, .refl r s c⟩
  | some q =>
    have hqr : q ≠ r := fun h => hc (h ▸ hq)
    rw [suspend_of_some hq]
    exact ⟨stays_modifyTx hqr _, lets_none hc⟩

end Context

/-- An operation of a context that is not about `r`. -/
lemma ContextOperation.stays_apply {c : Context} {o : ContextOperation}
    (h : o.own? r c s = none) : s.Stays r (o.apply c s).2 ∧ c.Lets r s (o.apply c s).1 := by
  cases o with
  | begin =>
    rw [apply]
    rcases c.begin_cases s with ⟨t, -, hb⟩ | ⟨e, -, hb⟩ | ⟨q, t, hh, hbegin, -, hb⟩
    · rw [hb]
      exact ⟨.refl r s, .refl r s c⟩
    · rw [hb]
      exact ⟨.refl r s, .refl r s c⟩
    · have hq : q ≠ r := by
        rintro rfl
        simp [own?, hb, Except.toOption] at h
      rw [hb]
      exact ⟨(stays_begin hbegin hq).trans (stays_modifyTx hq _), Context.lets_of_held? hh hq⟩
  | mark =>
    have hc : c.current ≠ some r := fun hc => by simp [own?, hc] at h
    rw [apply, Context.setRollbackOnly]
    cases hq : c.current with
    | none => exact ⟨.refl r s, .refl r s c⟩
    | some q =>
      cases hx : (s.tx q).markRollbackOnly .markedRollbackOnly with
      | error e => simpa [hx, bind, Except.bind] using ⟨System.Stays.refl r s, .refl r s c⟩
      | ok x =>
        have hqr : q ≠ r := fun h => hc (h ▸ hq)
        simpa [hx, bind, Except.bind] using
          ⟨stays_modifyTx (s := s) hqr fun _ => x, Context.Lets.refl r s c⟩
  | suspend => exact (c.stays_suspend (fun hc => by simp [own?, hc] at h) s)
  | resume q =>
    rw [apply]
    cases hx : c.resume q s with
    | error e => exact ⟨.refl r s, .refl r s c⟩
    | ok y =>
      have hq : q ≠ r := by
        rintro rfl
        simp [own?, hx, Except.toOption] at h
      obtain ⟨hh, -, hc, x, -, ht⟩ := Context.resume_ok hx
      dsimp only
      rw [hc, ht]
      exact ⟨stays_modifyTx hq _, Context.lets_of_held? hh hq⟩
  | setTimeout timeout => cases h

/-! ### Machines -/

namespace Machine

variable {M M' : Machine} {k i : Nat} {c : Context} {x : Request}

/-- A step of a program that is not about `r`. -/
structure Stays (r : TxRef) (M M' : Machine) : Prop where
  system : M.system.Stays r M'.system
  length : M'.contexts.length = M.contexts.length
  contexts : ∀ (k : Nat) (c' : Context), M'.contexts[k]? = some (some c') →
    ∃ c : Context, M.contexts[k]? = some (some c) ∧ c.Lets r M.system c'
  on : M'.on r = M.on r

@[refl] lemma Stays.refl (r : TxRef) (M : Machine) : M.Stays r M :=
  ⟨.refl r M.system, rfl, fun _ c' h => ⟨c', h, .refl r M.system c'⟩, rfl⟩

lemma held?_eq_some_iff :
    M.held? k = some r ↔ ∃ c, M.contexts[k]? = some (some c) ∧ c.current = some r := by
  simp [held?, Option.bind_eq_some_iff, context?_eq_some_iff]

/-- A context, the system, and perhaps a request that is not about `r`. -/
lemma stays_set {xs : List Request} (hk : M.contexts[k]? = some (some c)) {c' : Option Context}
    (hc : ∀ d, c' = some d → c.Lets r M.system d) (hs : M.system.Stays r s)
    (hx : xs.filter (·.tx = r) = []) :
    M.Stays r ⟨s, M.contexts.set k c', M.requests ++ xs⟩ where
  system := hs
  length := List.length_set
  contexts j d hd := by
    rcases live_set_cases hd with ⟨-, hj⟩ | ⟨rfl, hj⟩
    · exact ⟨d, hj, .refl r M.system d⟩
    · exact ⟨c, hk, hc d hj⟩
  on := by rw [on, List.filter_append, hx, List.append_nil, on]

/-- What is before and after a request. -/
lemma exists_split {xs : List Request} (hi : xs[i]? = some x) :
    ∃ ys zs, xs = ys ++ x :: zs ∧ ys.length = i := by
  obtain ⟨hlt, rfl⟩ := List.getElem?_eq_some_iff.mp hi
  refine ⟨xs.take i, xs.drop (i + 1), ?_, List.length_take_of_le hlt.le⟩
  rw [← List.drop_eq_getElem_cons hlt, List.take_append_drop]

lemma set_split {ys zs : List Request} (y : Request) (hi : ys.length = i) :
    (ys ++ x :: zs).set i y = ys ++ y :: zs := by
  subst hi
  simp

/-- The place of a request on another transaction than `r` is taken by one on that transaction. -/
lemma filter_set_of_ne {xs : List Request} {y : Request} (hi : xs[i]? = some x) (hx : x.tx ≠ r)
    (hy : y.tx = x.tx) : (xs.set i y).filter (·.tx = r) = xs.filter (·.tx = r) := by
  obtain ⟨ys, zs, rfl, hlen⟩ := exists_split hi
  rw [set_split y hlen]
  simp [List.filter_append, hx, hy]

/-- An answer to a request on another transaction. -/
lemma stays_answer (hM : M.Reachable) (hi : M.requests[i]? = some x) (hx : x.tx ≠ r)
    {s₀ : System} {q : Question} {next : System → q.Answer → Dialogue (Except TxError Unit)}
    (hp : x.progress = .ask s₀ q next) (a : q.Answer) :
    M.system.Stays r (next M.system a).system := by
  obtain ⟨owner, hsound⟩ := hM.sound
  rcases hsound.answer hi hp a with ⟨hl, -⟩ | ⟨-, htake, -⟩ | ⟨-, ⟨c, g, hk, -⟩, hacts⟩
  · exact hl.stays hx
  · rw [htake]
    exact stays_modifyTx hx _
  · obtain ⟨g', hg, -⟩ := hacts c g hk
    exact hg.stays (hk.tx ▸ hx)

/-- What is erased leaves alone all that there is of the transaction. -/
lemma stays_perform (hM : M.Reachable) {a : Act} (h : a.own? r M = none) :
    M.Stays r (M.perform a) := by
  cases a with
  | operate o =>
    have hs : M.system.Stays r (o.apply M.system) := by
      refine Operation.stays_apply ?_
      simpa [Act.own?] using h
    exact ⟨hs, rfl, fun _ c' h => ⟨c', h, .refl r M.system c'⟩, rfl⟩
  | openContext m => cases h
  | useContext k o =>
    rw [perform]
    split
    next ho =>
      cases hc : M.context? k with
      | none =>
        have hnone : M.useContext k o = M := by
          unfold useContext
          split
          next c hk => rw [context?_eq_some_iff.mpr hk] at hc; cases hc
          next => rfl
        rw [hnone]
      | some c =>
        have hk := context?_eq_some_iff.mp hc
        have hown : o.own? r c M.system = none := by simpa [Act.own?, hc] using h
        obtain ⟨hs, hlets⟩ := ContextOperation.stays_apply hown
        rw [useContext_of_some hk o, ← List.append_nil M.requests]
        exact stays_set hk (by rintro d ⟨⟩; exact hlets) hs rfl
    next => exact .refl r M
  | dropContext k =>
    have hheld : M.held? k ≠ some r := fun hr => by simp [Act.own?, hr] at h
    rw [perform, dropContext]
    split
    next c hc =>
      have hk := context?_eq_some_iff.mp hc
      have hcr : c.current ≠ some r := fun hr => hheld (held?_eq_some_iff.mpr ⟨c, hk, hr⟩)
      rw [← List.append_nil M.requests]
      exact stays_set hk (by rintro d ⟨⟩) (c.stays_suspend hcr M.system).1 rfl
    next => exact .refl r M
  | request how m q =>
    have hq : q ≠ r := fun hq => by simp [Act.own?, hq] at h
    rw [perform, Machine.request]
    split
    next hlt =>
      rw [(station_proc how m rfl).1]
      refine ⟨.refl r M.system, rfl, fun _ c' h => ⟨c', h, .refl r M.system c'⟩, ?_⟩
      simp [on, List.filter_append, Request.start, hq]
    next => exact .refl r M
  | requestWithin how k =>
    have hheld : M.held? k ≠ some r := fun hr => by simp [Act.own?, hr] at h
    rw [perform, requestWithin]
    split
    next c hc =>
      have hk := context?_eq_some_iff.mp hc
      split
      next q hq =>
        have hqr : q ≠ r := fun hr => hheld (held?_eq_some_iff.mpr ⟨c, hk, hr ▸ hq⟩)
        split
        next hlt =>
          rw [hM.associated.enter hk hq how, (station_proc how c.manager rfl).1]
          refine stays_set hk ?_ (stays_modifyTx hqr _) (by simp [Request.start, hqr])
          rintro d ⟨⟩
          exact Context.lets_none fun hr => hqr (Option.some.inj (hq.symm.trans hr))
        next => exact .refl r M
      next => exact .refl r M
    next => exact .refl r M
  | answer i reply =>
    rw [perform, hear]
    split
    next x hi =>
      have hx : x.tx ≠ r := fun hx => by simp [Act.own?, hi, hx] at h
      split
      next s q next hp =>
        split
        next a ha =>
          exact ⟨stays_answer hM hi hx hp a, rfl, fun _ c' h => ⟨c', h, .refl r M.system c'⟩,
            filter_set_of_ne hi hx rfl⟩
        next => exact .refl r M
      next => exact .refl r M
    next => exact .refl r M

end Machine

end TwoPhaseCommit
