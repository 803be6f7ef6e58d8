import TwoPhaseCommit.Proofs.Machine
import TwoPhaseCommit.Proofs.Renaming

/-!
# Programs as lists of acts

What a step of a program does is an `Act`: an operation, a request, or an answer to the open
question of a request. Performed one after the other, acts lead from an empty machine to whatever a
program may come to, and to nothing else (`Machine.reachable_iff`).
-/

namespace TwoPhaseCommit

/-- One thing that a task does. -/
inductive Act
  | operate (operation : Operation)
  | openContext (manager : ManagerRef)
  | useContext (context : Nat) (operation : ContextOperation)
  | dropContext (context : Nat)
  | request (how : Ending) (manager : ManagerRef) (tx : TxRef)
  | requestWithin (how : Ending) (context : Nat)
  | answer (request : Nat) (reply : Reply)

instance (s : System) (o : ContextOperation) : Decidable (o.Refers s) := by
  cases o <;> unfold ContextOperation.Refers <;> infer_instance

namespace Machine

variable {M M' : Machine} {k i : Nat} {c : Context} {x : Request}

/-- The context of a given number, unless it was dropped. -/
def context? (M : Machine) (k : Nat) : Option Context := M.contexts[k]?.join

lemma context?_eq_some_iff : M.context? k = some c ↔ M.contexts[k]? = some (some c) :=
  Option.join_eq_some_iff

/-- The machine without a context, if there is one. -/
def dropContext (M : Machine) (k : Nat) : Machine :=
  match M.context? k with
  | some c => { M with system := c.drop M.system, contexts := M.contexts.set k none }
  | none => M

/-- The machine after a request through a context, if that holds a transaction. -/
def requestWithin (M : Machine) (how : Ending) (k : Nat) : Machine :=
  match M.context? k with
  | some c =>
    match c.current with
    | some r =>
      if r < M.system.transactions.size then
        { M with
          system := (c.enter how M.system).2.system
          contexts := M.contexts.set k (some (c.enter how M.system).1)
          requests := M.requests ++ [.start how c.manager r M.system (c.enter how M.system).2] }
      else M
    | none => M
  | none => M

/-- The machine after a reply to the open question of a request, if it can be one. -/
def hear (M : Machine) (i : Nat) (reply : Reply) : Machine :=
  match M.requests[i]? with
  | some x =>
    match x.progress with
    | .ask _ q next =>
      match q.answer? reply with
      | some a =>
        { M with
          system := (next M.system a).system
          requests := M.requests.set i (x.resume q a M.system (next M.system a)) }
      | none => M
    | .done _ _ => M
  | none => M

/-- The machine after an act. Where there is nothing that it could be done to, nothing happens. -/
def perform (M : Machine) : Act → Machine
  | .operate o => M.operate o
  | .openContext m => M.openContext m
  | .useContext k o => if o.Refers M.system then M.useContext k o else M
  | .dropContext k => M.dropContext k
  | .request how m r => M.request how m r
  | .requestWithin how k => M.requestWithin how k
  | .answer i reply => M.hear i reply

/-- The machine after some acts. -/
def run (M : Machine) (as : List Act) : Machine := as.foldl perform M

@[simp] lemma run_cons (M : Machine) (a : Act) (as : List Act) :
    M.run (a :: as) = (M.perform a).run as := rfl

lemma run_append (M : Machine) (as bs : List Act) : M.run (as ++ bs) = (M.run as).run bs :=
  List.foldl_append ..

/-- What is asked and answered in an act, and about which transaction. -/
def heard (M : Machine) : Act → List (TxRef × Exchange)
  | .answer i reply =>
    match M.requests[i]? with
    | some x =>
      match x.progress with
      | .ask _ q _ =>
        match q.answer? reply with
        | some a => (Exchange.note q a).map (x.tx, ·)
        | none => []
      | .done _ _ => []
    | none => []
  | _ => []

/-- All that is asked and answered, in the order in which it is. -/
def transcript : Machine → List Act → List (TxRef × Exchange)
  | _, [] => []
  | M, a :: as => M.heard a ++ transcript (M.perform a) as

/-! ### Acts are steps -/

lemma useContext_of_some (hc : M.contexts[k]? = some (some c)) (o : ContextOperation) :
    M.useContext k o =
      { M with
        system := (o.apply c M.system).2
        contexts := M.contexts.set k (some (o.apply c M.system).1) } := by
  rw [useContext, hc]

lemma dropContext_of_some (hc : M.contexts[k]? = some (some c)) :
    M.dropContext k = { M with system := c.drop M.system, contexts := M.contexts.set k none } := by
  rw [dropContext, context?_eq_some_iff.mpr hc]

lemma request_of_lt {r : TxRef} (hr : r < M.system.transactions.size) (how : Ending)
    (m : ManagerRef) :
    M.request how m r =
      { M with
        system := (how.proc m r M.system).system
        requests := M.requests ++ [.start how m r M.system (how.proc m r M.system)] } :=
  if_pos hr

lemma requestWithin_of_some {r : TxRef} (hc : M.contexts[k]? = some (some c))
    (hr : c.current = some r) (hlt : r < M.system.transactions.size) (how : Ending) :
    M.requestWithin how k =
      { M with
        system := (c.enter how M.system).2.system
        contexts := M.contexts.set k (some (c.enter how M.system).1)
        requests := M.requests ++ [.start how c.manager r M.system (c.enter how M.system).2] } := by
  simp only [requestWithin, context?_eq_some_iff.mpr hc, hr, hlt, if_true]

lemma hear_of_ask {s : System} {q : Question}
    {next : System → q.Answer → Dialogue (Except TxError Unit)} (hi : M.requests[i]? = some x)
    (hp : x.progress = .ask s q next) {reply : Reply} {a : q.Answer}
    (ha : q.answer? reply = some a) :
    M.hear i reply =
      { M with
        system := (next M.system a).system
        requests := M.requests.set i (x.resume q a M.system (next M.system a)) } := by
  simp only [hear, hi, hp, ha]

lemma heard_of_ask {s : System} {q : Question}
    {next : System → q.Answer → Dialogue (Except TxError Unit)} (hi : M.requests[i]? = some x)
    (hp : x.progress = .ask s q next) {reply : Reply} {a : q.Answer}
    (ha : q.answer? reply = some a) :
    M.heard (.answer i reply) = (Exchange.note q a).map (x.tx, ·) := by
  simp only [heard, hi, hp, ha]

/-- Only an answer is heard, and it is noted in the request. -/
lemma of_mem_heard {a : Act} {e : TxRef × Exchange} (he : e ∈ M.heard a) :
    ∃ i reply x, a = .answer i reply ∧ M.requests[i]? = some x ∧ e.1 = x.tx ∧
      ∃ y ∈ (M.perform a).requests, y.tx = x.tx ∧ e.2 ∈ y.exchanges := by
  cases a with
  | answer i reply =>
    have hheard := he
    rw [heard] at hheard
    split at hheard
    next x hi =>
      split at hheard
      next s q next hp =>
        split at hheard
        next a ha =>
          obtain ⟨e', he', rfl⟩ := List.mem_map.mp hheard
          refine ⟨i, reply, x, rfl, hi, rfl, x.resume q a M.system (next M.system a), ?_, rfl,
            List.mem_append_right _ he'⟩
          rw [perform, hear_of_ask hi hp ha]
          exact List.mem_set (List.getElem?_eq_some_iff.mp hi).1 _
        next => cases hheard
      next => cases hheard
    next => cases hheard
  | _ => cases he

/-- An act is a step, or nothing happens. -/
lemma perform_cases (M : Machine) (a : Act) : M.perform a = M ∨ Step M (M.perform a) := by
  cases a with
  | operate o => exact .inr (.operate o)
  | openContext m => exact .inr (.openContext m)
  | useContext k o =>
    rw [perform]
    split
    next ho =>
      unfold useContext
      split
      next c hc => exact .inr (.useContext hc o ho)
      next => exact .inl rfl
    next => exact .inl rfl
  | dropContext k =>
    rw [perform, dropContext]
    split
    next c hc => exact .inr (.dropContext (context?_eq_some_iff.mp hc))
    next => exact .inl rfl
  | request how m r =>
    rw [perform, request]
    split
    next hr => exact .inr (.request how m hr)
    next => exact .inl rfl
  | requestWithin how k =>
    rw [perform, requestWithin]
    split
    next c hc =>
      split
      next r hr =>
        split
        next hlt => exact .inr (.requestWithin how (context?_eq_some_iff.mp hc) hr hlt)
        next => exact .inl rfl
      next => exact .inl rfl
    next => exact .inl rfl
  | answer i reply =>
    rw [perform, hear]
    split
    next x hi =>
      split
      next s q next hp =>
        split
        next a ha => exact .inr (.answer hi hp a)
        next => exact .inl rfl
      next => exact .inl rfl
    next => exact .inl rfl

lemma steps_perform (M : Machine) (a : Act) : M.Steps (M.perform a) := by
  rcases M.perform_cases a with h | h
  · rw [h]
  · exact .single h

lemma Reachable.perform (h : M.Reachable) (a : Act) : (M.perform a).Reachable :=
  h.steps (M.steps_perform a)

lemma steps_run (M : Machine) (as : List Act) : M.Steps (M.run as) := by
  induction as generalizing M with
  | nil => exact .refl
  | cons a as ih =>
    rw [run_cons]
    exact (M.steps_perform a).trans (ih _)

lemma Reachable.run (h : M.Reachable) (as : List Act) : (M.run as).Reachable :=
  h.steps (M.steps_run as)

/-- Every step is an act. -/
lemma Step.exists_act (h : Step M M') : ∃ a, M.perform a = M' := by
  cases h with
  | operate o => exact ⟨.operate o, rfl⟩
  | openContext m => exact ⟨.openContext m, rfl⟩
  | @useContext k c hc o ho => exact ⟨.useContext k o, (if_pos ho).trans (useContext_of_some hc o)⟩
  | @dropContext k c hc => exact ⟨.dropContext k, dropContext_of_some hc⟩
  | @request how m r hr => exact ⟨.request how m r, request_of_lt hr how m⟩
  | @requestWithin how k c r hc hr hlt =>
    exact ⟨.requestWithin how k, requestWithin_of_some hc hr hlt how⟩
  | @answer i x s q next hi hp a =>
    exact ⟨.answer i (q.reply a),
      hear_of_ask hi hp (Question.answer?_eq_some_iff.mpr rfl)⟩

lemma Steps.exists_run (h : M.Steps M') : ∃ as, M.run as = M' := by
  induction h with
  | refl => exact ⟨[], rfl⟩
  | tail _ hs ih =>
    obtain ⟨as, rfl⟩ := ih
    obtain ⟨a, rfl⟩ := hs.exists_act
    exact ⟨as ++ [a], run_append ..⟩

/-- What a program may come to is what acts lead to. -/
lemma reachable_iff :
    M.Reachable ↔ ∃ clock seed, ∃ as : List Act, (initial clock seed).run as = M := by
  constructor
  · rintro ⟨clock, seed, h⟩
    exact ⟨clock, seed, h.exists_run⟩
  · rintro ⟨clock, seed, as, rfl⟩
    exact (reachable_initial clock seed).run as

end Machine

end TwoPhaseCommit
