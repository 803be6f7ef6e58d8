import Mathlib.Logic.Function.Iterate
import Mathlib.Logic.Relation
import TwoPhaseCommit.Proofs.Dialogue
import TwoPhaseCommit.Proofs.System

/-!
# Programs

A program works on a system in many tasks. They enlist and mark, use contexts, and request
completions, each of which is a dialogue. Any task may have its turn while a question is open, be it
because another task runs beside the completion, or because the one who is asked calls the
coordinator again. So a run of a program is a sequence of single steps in any order, and a machine
is what there is between two of them.
-/

namespace TwoPhaseCommit

/-! ### Operations -/

/-- The two ways to complete a transaction. -/
inductive Ending
  | commit
  | rollback
deriving DecidableEq

namespace Ending

/-- What the call is named. -/
def name : Ending → String
  | commit => "commit"
  | rollback => "rollback"

/-- The completion through a manager. -/
def proc : Ending → ManagerRef → TxRef → Proc (Except TxError Unit)
  | commit => Coordinator.commit
  | rollback => Coordinator.rollback

end Ending

/-- The system after an operation on a transaction, which changes nothing if it fails. -/
def System.changeTx (s : System) (r : TxRef) : Except TxError Transaction → System
  | .ok t => s.modifyTx r fun _ => t
  | .error _ => s

/-- An operation that completes nothing. -/
inductive Operation
  | wait (nanos : Nat)
  | addManager (config : CoordinatorConfig) (log : LogRef)
  | begin (manager : ManagerRef) (timeout : Option Duration)
  | enlist (tx : TxRef) (adapter : Adapter)
  | delist (tx : TxRef) (adapter : AdapterKey) (flag : DelistFlag)
  | register (tx : TxRef) (callback : Synchronization) (interposed : Bool)
  | mark (tx : TxRef)
  | force (manager : ManagerRef) (id : TxId)
  /-- One transaction is looked at by whoever marks those whose time is over. -/
  | expire (manager : ManagerRef) (tx : TxRef)

/-- The system after an operation. -/
def Operation.apply (s : System) : Operation → System
  | wait nanos => { s with clock := s.clock + nanos }
  | addManager config log => (s.addManager config log).2
  | begin m timeout =>
    match s.begin m timeout with
    | .ok (_, t) => t
    | .error _ => s
  | enlist r a => s.changeTx r (((s.tx r).enlist a).map (·.2))
  | delist r a flag => s.changeTx r (((s.tx r).delist a flag).map (·.2))
  | register r c interposed => s.changeTx r ((s.tx r).register c interposed)
  | mark r => s.changeTx r ((s.tx r).markRollbackOnly .markedRollbackOnly)
  | force m id =>
    match s.force m id with
    | .ok t => t
    | .error _ => s
  | expire m r => (s.expireIfDue m r).2

/-- To mark all whose time is over is to look at one after the other. -/
lemma System.reap_eq (s : System) (m : ManagerRef) :
    (s.reap m).2 =
      (s.manager m).registered.foldl (fun s r => (Operation.expire m r).apply s) s := by
  have h : ∀ (rs : List TxRef) (n : Nat) (s : System),
      (rs.foldl (fun (x : Nat × System) r =>
        (if (x.2.expireIfDue m r).1 then x.1 + 1 else x.1, (x.2.expireIfDue m r).2)) (n, s)).2 =
        rs.foldl (fun s r => (Operation.expire m r).apply s) s := by
    intro rs
    induction rs with
    | nil => exact fun _ _ => rfl
    | cons r rs ih => exact fun _ _ => ih _ _
  exact h _ 0 s

/-- An operation of a context that completes nothing. -/
inductive ContextOperation
  | begin
  | mark
  | suspend
  | resume (tx : TxRef)
  | setTimeout (timeout : Option Duration)

/-- The context and the system after an operation, which changes nothing if it fails. -/
def ContextOperation.apply (c : Context) (s : System) : ContextOperation → Context × System
  | begin =>
    match c.begin s with
    | .ok (_, c, s) => (c, s)
    | .error _ => (c, s)
  | mark =>
    match c.setRollbackOnly s with
    | .ok t => (c, t)
    | .error _ => (c, s)
  | suspend => (c.suspend s).2
  | resume r =>
    match c.resume r s with
    | .ok (c, s) => (c, s)
    | .error _ => (c, s)
  | setTimeout timeout => ({ c with timeout }, s)

/-- A context can resume a transaction that there is. -/
def ContextOperation.Refers (s : System) : ContextOperation → Prop
  | resume r => r < s.transactions.size
  | _ => True

/-- How a context completes what it holds: what is left of it, and the dialogue. -/
def Context.enter (how : Ending) (c : Context) (s : System) :
    Context × Dialogue (Except TxError Unit) :=
  match c.takeOwned how.name s with
  | .error e => (c, .done s (.error e))
  | .ok (r, c, t) => (c, how.proc c.manager r t)

/-- The context is given back when the dialogue has ended. -/
lemma Context.complete_eq (how : Ending) (c : Context) (s : System) :
    c.complete how.name how.proc s =
      (c.enter how s).2.bind fun t result => .done t (result, (c.enter how s).1) := by
  have hview : c.complete how.name how.proc s =
      (match c.takeOwned how.name s with
        | .error e => (pure (.error e, c) : Proc (Except TxError Unit × Context))
        | .ok (r, c, t) => do
          Proc.change fun _ => t
          return (← how.proc c.manager r, c)) s := rfl
  rw [hview, enter]
  cases c.takeOwned how.name s with
  | error e => rfl
  | ok x => rfl

/-! ### Machines -/

/-- A completion that was requested. -/
structure Request where
  how : Ending
  manager : ManagerRef
  tx : TxRef
  /-- What is left of its dialogue. -/
  progress : Dialogue (Except TxError Unit)
  exchanges : List Exchange
  /-- Its own steps: the systems that they found and the systems that they left. -/
  steps : List (System × System)

/-- A request is made, and its dialogue comes to its first question. -/
def Request.start (how : Ending) (m : ManagerRef) (r : TxRef) (s : System)
    (d : Dialogue (Except TxError Unit)) : Request :=
  ⟨how, m, r, d, [], [(s, d.system)]⟩

/-- The open question is answered, and the dialogue comes to its next one. -/
def Request.resume (request : Request) (q : Question) (a : q.Answer) (s : System)
    (d : Dialogue (Except TxError Unit)) : Request :=
  { request with
    progress := d, exchanges := request.exchanges ++ Exchange.note q a
    steps := request.steps ++ [(s, d.system)] }

/-- A system, the contexts of its tasks, and every completion that was ever requested. -/
structure Machine where
  system : System
  contexts : List (Option Context) := []
  requests : List Request := []

namespace Machine

/-- What there is before anything was done. -/
def initial (clock seed : Nat) : Machine := { system := { clock, seed } }

/-- One step of one task. -/
inductive Step : Machine → Machine → Prop
  | operate {M : Machine} (o : Operation) : Step M { M with system := o.apply M.system }
  | openContext {M : Machine} (m : ManagerRef) :
    Step M { M with
      system := (Context.new m M.system).2
      contexts := M.contexts ++ [some (Context.new m M.system).1] }
  | useContext {M : Machine} {k : Nat} {c : Context} (hc : M.contexts[k]? = some (some c))
      (o : ContextOperation) (ho : o.Refers M.system) :
    Step M { M with
      system := (o.apply c M.system).2
      contexts := M.contexts.set k (some (o.apply c M.system).1) }
  | dropContext {M : Machine} {k : Nat} {c : Context} (hc : M.contexts[k]? = some (some c)) :
    Step M { M with system := c.drop M.system, contexts := M.contexts.set k none }
  | request {M : Machine} (how : Ending) (m : ManagerRef) {r : TxRef}
      (hr : r < M.system.transactions.size) :
    Step M { M with
      system := (how.proc m r M.system).system
      requests := M.requests ++ [.start how m r M.system (how.proc m r M.system)] }
  | requestWithin {M : Machine} (how : Ending) {k : Nat} {c : Context} {r : TxRef}
      (hc : M.contexts[k]? = some (some c)) (hr : c.current = some r)
      (hs : r < M.system.transactions.size) :
    Step M { M with
      system := (c.enter how M.system).2.system
      contexts := M.contexts.set k (some (c.enter how M.system).1)
      requests := M.requests ++ [.start how c.manager r M.system (c.enter how M.system).2] }
  | answer {M : Machine} {i : Nat} {request : Request} {s : System} {q : Question}
      {next : System → q.Answer → Dialogue (Except TxError Unit)}
      (hi : M.requests[i]? = some request)
      (hp : request.progress = .ask s q next) (a : q.Answer) :
    Step M { M with
      system := (next M.system a).system
      requests := M.requests.set i (request.resume q a M.system (next M.system a)) }

/-- From one machine to another by steps. -/
abbrev Steps : Machine → Machine → Prop := Relation.ReflTransGen Step

/-- A program may come to this. -/
def Reachable (M : Machine) : Prop := ∃ clock seed, Steps (initial clock seed) M

lemma Reachable.steps {M M' : Machine} (h : M.Reachable) (h' : M.Steps M') : M'.Reachable := by
  obtain ⟨clock, seed, h⟩ := h
  exact ⟨clock, seed, h.trans h'⟩

/-- What holds at first and is kept by each step holds of all that a program may come to. -/
lemma Reachable.induct {P : Machine → Prop} (hinit : ∀ clock seed, P (initial clock seed))
    (hstep : ∀ M M', P M → Step M M' → P M') {M : Machine} (h : M.Reachable) : P M := by
  obtain ⟨clock, seed, h⟩ := h
  induction h with
  | refl => exact hinit clock seed
  | tail _ hs ih => exact hstep _ _ ih hs

/-- The same, with regard to what is known of whatever a program may come to. -/
lemma Reachable.invariant {P : Machine → Prop} (hinit : ∀ clock seed, P (initial clock seed))
    (hstep : ∀ M M', M.Reachable → P M → Step M M' → P M') {M : Machine} (h : M.Reachable) : P M :=
  (h.induct (P := fun M => M.Reachable ∧ P M)
    (fun clock seed => ⟨⟨clock, seed, .refl⟩, hinit clock seed⟩)
    fun M M' ⟨hM, hP⟩ hs => ⟨hM.steps (.single hs), hstep M M' hM hP hs⟩).2

/-! ### Runs -/

/-- The machine after an operation. -/
def operate (M : Machine) (o : Operation) : Machine := { M with system := o.apply M.system }

/-- The machine with one more context. -/
def openContext (M : Machine) (m : ManagerRef) : Machine :=
  { M with
    system := (Context.new m M.system).2
    contexts := M.contexts ++ [some (Context.new m M.system).1] }

/-- The machine after an operation of a context, if there is such a context. -/
def useContext (M : Machine) (k : Nat) (o : ContextOperation) : Machine :=
  match M.contexts[k]? with
  | some (some c) =>
    { M with
      system := (o.apply c M.system).2, contexts := M.contexts.set k (some (o.apply c M.system).1) }
  | _ => M

/-- The machine after a request, if there is such a transaction. -/
def request (M : Machine) (how : Ending) (m : ManagerRef) (r : TxRef) : Machine :=
  if r < M.system.transactions.size then
    { M with
      system := (how.proc m r M.system).system
      requests := M.requests ++ [.start how m r M.system (how.proc m r M.system)] }
  else M

/-- The machine after an answer to the open question of a request, if there is one. -/
def answer (reply : (q : Question) → q.Answer) (i : Nat) (M : Machine) : Machine :=
  match M.requests[i]? with
  | none => M
  | some x =>
    match x.progress with
    | .done _ _ => M
    | .ask _ q next =>
      { M with
        system := (next M.system (reply q)).system
        requests := M.requests.set i (x.resume q (reply q) M.system (next M.system (reply q))) }

lemma reachable_initial (clock seed : Nat) : (initial clock seed).Reachable := ⟨clock, seed, .refl⟩

lemma Reachable.operate {M : Machine} (h : M.Reachable) (o : Operation) : (M.operate o).Reachable :=
  h.steps (.single (.operate o))

lemma Reachable.openContext {M : Machine} (h : M.Reachable) (m : ManagerRef) :
    (M.openContext m).Reachable :=
  h.steps (.single (.openContext m))

lemma Reachable.useContext {M : Machine} (h : M.Reachable) (k : Nat) {o : ContextOperation}
    (ho : o.Refers M.system) : (M.useContext k o).Reachable := by
  unfold Machine.useContext
  split
  next c hc => exact h.steps (.single (.useContext hc o ho))
  next => exact h

lemma Reachable.request {M : Machine} (h : M.Reachable) (how : Ending) (m : ManagerRef)
    (r : TxRef) :
    (M.request how m r).Reachable := by
  unfold Machine.request
  split
  next hr => exact h.steps (.single (.request how m hr))
  next => exact h

lemma step_answer (reply : (q : Question) → q.Answer) {i : Nat} {M : Machine} {x : Request}
    {s : System} {q : Question} {next : System → q.Answer → Dialogue (Except TxError Unit)}
    (hi : M.requests[i]? = some x) (hp : x.progress = .ask s q next) :
    Step M (M.answer reply i) := by
  unfold Machine.answer
  rw [hi]
  dsimp only
  rw [hp]
  exact .answer hi hp _

lemma steps_answer (reply : (q : Question) → q.Answer) (i : Nat) (M : Machine) :
    M.Steps (M.answer reply i) := by
  unfold Machine.answer
  split
  next => exact .refl
  next x hx =>
    split
    next => exact .refl
    next hp => exact .single (.answer hx hp _)

lemma steps_answers (reply : (q : Question) → q.Answer) (i n : Nat) (M : Machine) :
    M.Steps ((Machine.answer reply i)^[n] M) := by
  induction n with
  | zero => exact .refl
  | succ n ih =>
    rw [Function.iterate_succ_apply']
    exact ih.trans (steps_answer reply i _)

lemma Reachable.answers {M : Machine} (h : M.Reachable) (reply : (q : Question) → q.Answer)
    (i n : Nat) :
    ((Machine.answer reply i)^[n] M).Reachable :=
  h.steps (steps_answers reply i n M)

end Machine

/-! ### Operations of bystanders -/

/-- What an operation may do to a system. -/
inductive Operation.Touches (s : System) : Operation → System → Prop
  /-- The operation fails. -/
  | nothing {o : Operation} : Touches s o s
  | waited (nanos : Nat) : Touches s (.wait nanos) { s with clock := s.clock + nanos }
  | added (config : CoordinatorConfig) (log : LogRef) :
    Touches s (.addManager config log) (s.addManager config log).2
  | began {m : ManagerRef} {timeout : Option Duration} {r : TxRef} {t : System}
      (hb : s.begin m timeout = .ok (r, t)) : Touches s (.begin m timeout) t
  | enlisted {r : TxRef} {a : Adapter} {new : Bool} {x : Transaction}
      (hx : (s.tx r).enlist a = .ok (new, x)) : Touches s (.enlist r a) (s.modifyTx r fun _ => x)
  | delisted {r : TxRef} {a : AdapterKey} {flag : DelistFlag} {found : Bool} {x : Transaction}
      (hx : (s.tx r).delist a flag = .ok (found, x)) :
    Touches s (.delist r a flag) (s.modifyTx r fun _ => x)
  | registered {r : TxRef} {c : Synchronization} {interposed : Bool} {x : Transaction}
      (hx : (s.tx r).register c interposed = .ok x) :
    Touches s (.register r c interposed) (s.modifyTx r fun _ => x)
  | marked {r : TxRef} {x : Transaction}
      (hx : (s.tx r).markRollbackOnly .markedRollbackOnly = .ok x) :
    Touches s (.mark r) (s.modifyTx r fun _ => x)
  | forced {m : ManagerRef} {id : TxId} {r : TxRef} {x : Transaction}
      (hr : s.inFlight? m id = some r) (hx : (s.tx r).markRollbackOnly .forced = .ok x) :
    Touches s (.force m id) (s.modifyTx r fun _ => x)
  | looked (m : ManagerRef) (r : TxRef) : Touches s (.expire m r) (s.expireIfDue m r).2

lemma Operation.touches_apply (o : Operation) (s : System) : Touches s o (o.apply s) := by
  cases o with
  | wait nanos => exact .waited nanos
  | addManager config log => exact .added config log
  | begin m timeout =>
    rw [apply]
    cases h : s.begin m timeout with
    | error e => exact .nothing
    | ok x => exact .began h
  | enlist r a =>
    rw [apply]
    cases h : (s.tx r).enlist a with
    | error e => exact .nothing
    | ok x => exact .enlisted h
  | delist r a flag =>
    rw [apply]
    cases h : (s.tx r).delist a flag with
    | error e => exact .nothing
    | ok x => exact .delisted h
  | register r c interposed =>
    rw [apply]
    cases h : (s.tx r).register c interposed with
    | error e => exact .nothing
    | ok x => exact .registered h
  | mark r =>
    rw [apply]
    cases h : (s.tx r).markRollbackOnly .markedRollbackOnly with
    | error e => exact .nothing
    | ok x => exact .marked h
  | force m id =>
    rw [apply, System.force]
    cases hr : s.inFlight? m id with
    | none => exact .nothing
    | some r =>
      cases h : (s.tx r).markRollbackOnly .forced with
      | error e =>
        simp only [h, bind, Except.bind]
        exact .nothing
      | ok x =>
        simp only [h, bind, Except.bind]
        exact .forced hr h
  | expire m r => exact .looked m r

/-- Nothing but a completion takes a transaction, or disturbs the one that has taken it. -/
lemma Operation.Touches.bystands {s t : System} {o : Operation} (h : Touches s o t) :
    s.Bystands t := by
  cases h with
  | nothing => exact .refl s
  | waited _ => exact System.bystands_of_transactions_eq rfl
  | added _ _ => exact System.bystands_of_transactions_eq rfl
  | began hb => exact System.bystands_begin hb
  | enlisted hx => exact System.bystands_modifyTx _ (Transaction.undisturbed_enlist hx)
  | delisted hx => exact System.bystands_modifyTx _ (Transaction.undisturbed_delist hx)
  | registered hx => exact System.bystands_modifyTx _ (Transaction.undisturbed_register hx)
  | marked hx => exact System.bystands_modifyTx _ (Transaction.undisturbed_markRollbackOnly hx)
  | forced _ hx => exact System.bystands_modifyTx _ (Transaction.undisturbed_markRollbackOnly hx)
  | looked m r => exact System.bystands_expireIfDue s m r

namespace System

variable {s t : System} {r : TxRef}

lemma bystands_release (r : TxRef) (k : TaskId) : s.Bystands (s.modifyTx r (·.release k)) :=
  bystands_modifyTx r (Transaction.undisturbed_release ..)

lemma bystands_claim {k : TaskId} {t : Transaction} (h : (s.tx r).claim k = .ok t) :
    s.Bystands (s.modifyTx r fun _ => t) :=
  bystands_modifyTx r (Transaction.undisturbed_claim h)

end System

/-- What a task may do to its context and to a system through it. -/
inductive Context.Touches (c : Context) (s : System) : Context → System → Prop
  | nothing (timeout : Option Duration) : Touches c s { c with timeout } s
  | began {r : TxRef} {t : System} (hh : c.held? s = none)
      (hb : s.begin c.manager c.timeout = .ok (r, t)) (ho : (t.tx r).owner = none) :
    Touches c s { c with current := some r } (t.modifyTx r fun x => { x with owner := some c.task })
  | claimed {r : TxRef} {x : Transaction} (hh : c.held? s = none)
      (hs : (s.tx r).status.isTerminal = false) (hx : (s.tx r).claim c.task = .ok x) :
    Touches c s { c with current := some r } (s.modifyTx r fun _ => x)
  | released {r : TxRef} (hr : c.current = some r) :
    Touches c s { c with current := none } (s.modifyTx r (·.release c.task))
  | marked {r : TxRef} {why : RollbackReason} {x : Transaction}
      (hx : (s.tx r).markRollbackOnly why = .ok x) : Touches c s c (s.modifyTx r fun _ => x)

namespace Context

variable {c : Context} {s : System}

lemma touches_suspend (c : Context) (s : System) :
    c.Touches s (c.suspend s).2.1 (c.suspend s).2.2 := by
  unfold suspend
  split
  next => exact .nothing c.timeout
  next r hr => exact .released hr

/-- What may come of a begin: there is a transaction that has not ended, the manager refuses, or the
new transaction is held. -/
lemma begin_cases (c : Context) (s : System) :
    (∃ t, c.held? s = some t ∧ c.begin s = .error (.notSupported (.nested c.task t.id))) ∨
    (∃ e, s.begin c.manager c.timeout = .error e ∧ c.begin s = .error e) ∨
    ∃ r t, c.held? s = none ∧ s.begin c.manager c.timeout = .ok (r, t) ∧ (t.tx r).owner = none ∧
      c.begin s =
        .ok (r, { c with current := some r },
          t.modifyTx r fun x => { x with owner := some c.task }) := by
  unfold Context.begin
  cases hh : c.held? s with
  | some t => exact .inl ⟨t, rfl, rfl⟩
  | none =>
    cases hb : s.begin c.manager c.timeout with
    | error e => exact .inr (.inl ⟨e, rfl, rfl⟩)
    | ok y =>
      obtain ⟨-, hr, timeout, ht⟩ := System.begin_ok hb
      have ho : (y.2.tx y.1).owner = none := by
        rw [hr, ht, System.tx_modifyManager, System.tx_push_self]
      -- a new transaction has no owner, so that the claim does not fail
      have hc : (y.2.tx y.1).claim c.task = .ok { y.2.tx y.1 with owner := some c.task } := by
        rw [Transaction.claim, ho]
      refine .inr (.inr ⟨y.1, y.2, rfl, rfl, ho, ?_⟩)
      have hsame : y.2.modifyTx y.1 (fun x => { x with owner := some c.task }) =
          y.2.modifyTx y.1 fun _ => { y.2.tx y.1 with owner := some c.task } :=
        System.modifyTx_congr rfl
      rw [hsame]
      simp only [bind, Except.bind, hc]
      rfl

/-- What a resumption that succeeds has done. -/
lemma resume_ok {r : TxRef} {c' : Context} {t : System} (h : c.resume r s = .ok (c', t)) :
    c.held? s = none ∧ (s.tx r).status.isTerminal = false ∧ c' = { c with current := some r } ∧
    ∃ x, (s.tx r).claim c.task = .ok x ∧ t = s.modifyTx r fun _ => x := by
  unfold resume at h
  split at h
  next => cases h
  next hh =>
    dsimp only at h
    split at h
    next => cases h
    next hs =>
      split at h
      next => cases h
      next x hx =>
        cases h
        exact ⟨hh, Bool.not_eq_true _ ▸ hs, rfl, x, hx, rfl⟩

end Context

lemma ContextOperation.touches_apply (o : ContextOperation) (c : Context) (s : System) :
    c.Touches s (o.apply c s).1 (o.apply c s).2 := by
  cases o with
  | begin =>
    rw [apply]
    rcases c.begin_cases s with ⟨t, -, h⟩ | ⟨e, -, h⟩ | ⟨r, t, hh, hb, ho, h⟩
    · rw [h]
      exact .nothing c.timeout
    · rw [h]
      exact .nothing c.timeout
    · rw [h]
      exact .began hh hb ho
  | mark =>
    rw [apply, Context.setRollbackOnly]
    split
    next t h =>
      split at h
      next => cases h
      next r _ =>
        cases hx : (s.tx r).markRollbackOnly .markedRollbackOnly with
        | error e => rw [hx] at h; cases h
        | ok x =>
          rw [hx] at h
          cases h
          exact .marked hx
    next => exact .nothing c.timeout
  | suspend => exact c.touches_suspend s
  | resume r =>
    rw [apply]
    cases h : c.resume r s with
    | error e => exact .nothing c.timeout
    | ok y =>
      obtain ⟨hh, hs, hc, x, hx, ht⟩ := Context.resume_ok h
      dsimp only
      rw [hc, ht]
      exact .claimed hh hs hx
  | setTimeout timeout => exact .nothing timeout

/-- What is done through a context completes nothing. -/
lemma Context.Touches.bystands {c c' : Context} {s t : System} (h : c.Touches s c' t) :
    s.Bystands t := by
  cases h with
  | nothing _ => exact .refl s
  | began _ hb _ =>
    exact (System.bystands_begin hb).trans
      (System.bystands_modifyTx _ (Transaction.undisturbed_owner _ _))
  | claimed _ _ hx => exact System.bystands_claim hx
  | released _ => exact System.bystands_release _ c.task
  | marked hx =>
    exact System.bystands_modifyTx _ (Transaction.undisturbed_markRollbackOnly hx)

end TwoPhaseCommit
