import TwoPhaseCommit.Proofs.Dialogue

/-!
# Renaming

The id of a transaction is a name. What mentions a transaction may be made to mention one of another
name: a transaction itself, an error, a question or an exchange. Every operation on a transaction
commutes with that.
-/

namespace TwoPhaseCommit

/-! ### Errors -/

def Misuse.named (id : TxId) : Misuse → Misuse
  | alreadyCompleting _ => alreadyCompleting id
  | cannotCommit _ s => cannotCommit id s
  | cannotRollBack _ s => cannotRollBack id s
  | cannotEnlist r _ s => cannotEnlist r id s
  | cannotDelist _ s => cannotDelist id s
  | cannotMark _ s => cannotMark id s
  | cannotRegister _ s => cannotRegister id s
  | unknownTransaction _ => unknownTransaction id
  | noneAssociated call => noneAssociated call
  | notOwner call _ => notOwner call id
  | alreadyHolds k _ => alreadyHolds k id
  | described text => described text

def InvalidTransaction.named (id : TxId) : InvalidTransaction → InvalidTransaction
  | ended _ s => ended id s
  | ownedBy _ k => ownedBy id k
  | described text => described text

def Unsupported.named (id : TxId) : Unsupported → Unsupported
  | nested k _ => nested k id
  | described text => described text

/-- The error as it would be told of a transaction of another name. -/
def TxError.named (id : TxId) : TxError → TxError
  | rollback _ reason cause => rollback id reason cause
  | heuristicMixed _ fs => heuristicMixed id fs
  | heuristicRollback _ fs => heuristicRollback id fs
  | system fault => system fault
  | illegalState misuse => illegalState (misuse.named id)
  | invalidTransaction cause => invalidTransaction (cause.named id)
  | multipleLastAgents _ existing rejected => multipleLastAgents id existing rejected
  | resourceExhausted limit => resourceExhausted limit
  | notSupported cause => notSupported (cause.named id)

/-! ### Questions -/

/-- The record as it would be of a transaction of another name. -/
def LogRecord.named (id : TxId) (r : LogRecord) : LogRecord := { r with tx := id }

/-- The question as it would be put about a transaction of another name. -/
def Question.named (id : TxId) : Question → Question
  | prepare k _ => prepare k id
  | commit k _ onePhase => commit k id onePhase
  | rollback k _ => rollback k id
  | append log r => append log (r.named id)
  | q => q

/-- An answer, whatever the question. -/
inductive Reply
  | vote (vote : Except ResourceError Vote)
  | done (result : Except ResourceError Unit)
  | inDoubt (ids : Except ResourceError (List TxId))
  | written (result : Except StorageError Unit)
  | read (records : Except StorageError (List LogRecord))
  /-- Other tasks have had their turn. -/
  | turned

/-- The answer that was given to a question. -/
def Question.reply : (q : Question) → q.Answer → Reply
  | prepare .., a => .vote a
  | commit .., a | rollback .., a | beforeCompletion _, a | afterCompletion .., a => .done a
  | inDoubt _, a => .inDoubt a
  | append .., a | replace .., a => .written a
  | readAll _, a => .read a
  | turn, _ => .turned

/-- The answer as one to this question, if it can be one. -/
def Question.answer? : (q : Question) → Reply → Option q.Answer
  | prepare .., .vote a => some a
  | commit .., .done a | rollback .., .done a => some a
  | beforeCompletion _, .done a | afterCompletion .., .done a => some a
  | inDoubt _, .inDoubt a => some a
  | append .., .written a | replace .., .written a => some a
  | readAll _, .read a => some a
  | turn, .turned => some ()
  | _, _ => none

/-- What can be answered does not depend on the name. -/
lemma Question.answer?_eq_some_iff {q : Question} {reply : Reply} {a : q.Answer} :
    q.answer? reply = some a ↔ q.reply a = reply := by
  cases q <;> cases reply <;> simp [answer?, Question.reply, eq_comm]

/-- The exchange as it would be about a transaction of another name. -/
def Exchange.named (id : TxId) : Exchange → Exchange
  | ⟨.prepare k _, a⟩ => ⟨.prepare k id, a⟩
  | ⟨.commit k _ onePhase, a⟩ => ⟨.commit k id onePhase, a⟩
  | ⟨.rollback k _, a⟩ => ⟨.rollback k id, a⟩
  | ⟨.append log r, a⟩ => ⟨.append log (r.named id), a⟩
  | e => e

/-- Of a question and the same about a transaction of another name, with the same answer, the same
is noted. -/
lemma Exchange.note_named {id : TxId} {p q : Question} (hq : q = p.named id) {a : q.Answer}
    {b : p.Answer} (h : q.reply a = p.reply b) : note q a = (note p b).map (named id) := by
  subst hq
  cases p with
  | turn => rfl
  | _ =>
    cases h
    rfl

/-- The same can be answered, whatever the name. -/
lemma Question.answer?_named_cases (id : TxId) (p : Question) (reply : Reply) :
    ((p.named id).answer? reply = none ∧ p.answer? reply = none) ∨
    ∃ a b, (p.named id).answer? reply = some a ∧ p.answer? reply = some b ∧
      (p.named id).reply a = p.reply b := by
  cases p <;> cases reply <;>
    first
    | exact .inl ⟨rfl, rfl⟩
    | exact .inr ⟨_, _, rfl, rfl, rfl⟩

/-! ### Transactions -/

namespace Transaction

/-- The transaction under another name. -/
def named (id : TxId) (t : Transaction) : Transaction := { t with id }

variable {id : TxId} (t : Transaction)

/-- What an operation that may fail has made of a transaction of another name. -/
def renamed (id : TxId) (x : Except TxError Transaction) : Except TxError Transaction :=
  (x.map (named id)).mapError (TxError.named id)

lemma markRollbackOnly_named (why : RollbackReason) :
    (t.named id).markRollbackOnly why = renamed id (t.markRollbackOnly why) := by
  obtain ⟨i, d, n, status⟩ := t
  cases status <;> rfl

lemma enlist_named (a : Adapter) :
    ((t.named id).enlist a).map (·.2) = renamed id ((t.enlist a).map (·.2)) := by
  by_cases hs : t.status = .active
  · by_cases ha : t.resources.any (Enlisted.matches a.toAdapterKey) = true
    · simp only [enlist, named, hs, ha]
      rfl
    · simp only [enlist, named, hs, ha]
      cases if a.twoPhase then none else t.resources.find? (fun e => !e.adapter.twoPhase) <;> rfl
  · simp only [enlist, named, ne_eq, hs, not_false_eq_true, if_true]
    rfl

lemma delist_named (a : AdapterKey) (flag : DelistFlag) :
    ((t.named id).delist a flag).map (·.2) = renamed id ((t.delist a flag).map (·.2)) := by
  by_cases hs : (t.status ≠ .active ∧ t.status ≠ .markedRollback) ∨ t.completing
  · simp only [delist, named, hs, if_true]
    rfl
  · simp only [delist, named, hs, if_false]
    cases t.resources.find? (Enlisted.matches a) with
    | none => rfl
    | some e =>
      dsimp only
      by_cases hd : e.delisted.isSome
      · simp only [hd, if_true]
        rfl
      · simp only [hd]
        cases flag <;> rfl

lemma register_named (s : Synchronization) (interposed : Bool) :
    (t.named id).register s interposed = renamed id (t.register s interposed) := by
  by_cases hs : t.status ≠ .active ∨ t.completing
  · simp only [register, named, hs, if_true]
    rfl
  · simp only [register, named, hs, if_false]
    cases interposed <;> rfl

lemma claim_named (k : TaskId) : (t.named id).claim k = (t.claim k).map (named id) := by
  obtain ⟨_, _, _, _, _, _, _, _, _, owner, _⟩ := t
  cases owner with
  | none => rfl
  | some o =>
    by_cases ho : o = k
    · simp only [claim, named, ho, if_true]
      rfl
    · simp only [claim, named, ho, if_false]
      rfl

lemma release_named (k : TaskId) : (t.named id).release k = (t.release k).named id := by
  by_cases ho : t.owner = some k
  · simp only [release, named, ho, if_true]
  · simp only [release, named, ho, if_false]

lemma expire_named : (t.named id).expire = t.expire.named id := by
  obtain ⟨_, timeout, _, _, _, _, _, _, _, _, _⟩ := t
  cases timeout <;> rfl

lemma admitRollback_named :
    (t.named id).admitRollback =
      (t.admitRollback.1.map (Misuse.named id), t.admitRollback.2.named id) := by
  by_cases hs : t.completing ∨ (t.status ≠ .active ∧ t.status ≠ .markedRollback)
  · simp only [admitRollback, named, hs, if_true]
    rfl
  · simp only [admitRollback, named, hs, if_false]
    rfl

lemma enterPrepared_named :
    (t.named id).enterPrepared = (t.enterPrepared.1, t.enterPrepared.2.named id) := by
  by_cases hs : t.status = .markedRollback
  · simp only [enterPrepared, markedReason, named, hs, if_true]
    rfl
  · simp only [enterPrepared, markedReason, named, hs, if_false]

lemma enterCommit_named :
    (t.named id).enterCommit = (t.enterCommit.1, t.enterCommit.2.named id) := by
  by_cases hs : t.status = .markedRollback
  · simp only [enterCommit, named, hs, if_true]
  · simp only [enterCommit, named, hs, if_false]
    rfl

/-- The refusal as it would be told of a transaction of another name. -/
def Admission.named (id : TxId) : Admission → Admission
  | refused why => refused (why.named id)
  | toRollBack => toRollBack
  | toCommit callbacks => toCommit callbacks

lemma admitCommit_named :
    (t.named id).admitCommit = (t.admitCommit.1.named id, t.admitCommit.2.named id) := by
  obtain ⟨i, d, n, status, _, _, _, _, _, _, completing⟩ := t
  cases completing <;> cases status <;> rfl

end Transaction

end TwoPhaseCommit
