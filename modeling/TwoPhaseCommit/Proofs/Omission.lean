import TwoPhaseCommit.Proofs.Isolation
import TwoPhaseCommit.Proofs.Unaware

/-!
# Acts that may be left out

Most acts that associate a participant again or end its association may be left out of a program:
nobody whom a completion calls hears of it (`Machine.Recalls.run`). They are the ones that
`Machine.superfluous` tells.
-/

namespace TwoPhaseCommit

open Transaction (Enlisted.matches)

/-! ### What is left out -/

namespace Machine

/-- An act that ends an association in success, or associates one who takes part already. -/
def associates (M : Machine) : Act → Bool
  | .operate (.delist _ _ flag) => flag = .success
  | .operate (.enlist r a) => ((M.system.tx r).enlist a).toOption.any fun x => !x.1
  | _ => false

/-- An act that is to end an association with a failure, but finds it ended. -/
def repeats (M : Machine) : Act → Bool
  | .operate (.delist r k flag) =>
    flag = .fail && (((M.system.tx r).delist k flag).toOption.any fun x => !x.1) &&
      (M.system.tx r).resources.any (Enlisted.matches k)
  | _ => false

def superfluous (M : Machine) (a : Act) : Bool := M.associates a || M.repeats a

/-- What remains of some acts when those of a kind are left out. -/
def without (p : Machine → Act → Bool) : Machine → List Act → List Act
  | _, [] => []
  | M, a :: as => if p M a then without p (M.perform a) as else a :: without p (M.perform a) as

variable {M : Machine} {r : TxRef} {a : Adapter} {k : AdapterKey}

lemma associates_enlist : M.associates (.operate (.enlist r a)) = true ↔
    ∃ u, (M.system.tx r).enlist a = .ok (false, u) := by
  rw [associates]
  cases (M.system.tx r).enlist a with
  | error e => simp [Except.toOption]
  | ok x =>
    obtain ⟨new, u⟩ := x
    simp [Except.toOption]

lemma repeats_delist : M.repeats (.operate (.delist r k .fail)) = true ↔
    (∃ u, (M.system.tx r).delist k .fail = .ok (false, u)) ∧
      (M.system.tx r).resources.any (Enlisted.matches k) = true := by
  rw [repeats, Bool.and_eq_true, Bool.and_eq_true]
  simp only [decide_true, true_and]
  refine and_congr_left fun _ => ?_
  cases (M.system.tx r).delist k .fail with
  | error e => simp [Except.toOption]
  | ok x =>
    obtain ⟨found, u⟩ := x
    simp [Except.toOption]

end Machine

/-! ### Requests -/

/-- A request of both programs, to which the same was answered so far. -/
structure Request.Recalls (x y : Request) : Prop where
  how : x.how = y.how
  manager : x.manager = y.manager
  tx : x.tx = y.tx
  exchanges : x.exchanges = y.exchanges
  progress : x.progress.Recalls y.progress

namespace Request

variable {x y : Request}

lemma Recalls.story (h : x.Recalls y) : x.story = y.story := by
  have hprogress := h.progress
  rw [Request.story, Request.story, h.how, h.manager, h.exchanges]
  generalize x.progress = d, y.progress = d' at hprogress
  cases hprogress with
  | done _ _ => rfl
  | ask _ _ => rfl

lemma recalls_start (how : Ending) (m : ManagerRef) (r : TxRef) (s s' : System)
    {d d' : Dialogue (Except TxError Unit)} (hd : d.Recalls d') :
    (start how m r s d).Recalls (start how m r s' d') :=
  ⟨rfl, rfl, rfl, rfl, hd⟩

lemma Recalls.resume (h : x.Recalls y) (q : Question) (a : q.Answer) (s s' : System)
    {d d' : Dialogue (Except TxError Unit)} (hd : d.Recalls d') :
    (x.resume q a s d).Recalls (y.resume q a s' d') :=
  ⟨h.how, h.manager, h.tx, congrArg (· ++ _) h.exchanges, hd⟩

end Request

/-! ### Machines -/

/-- The machines of two programs, that differ only in how much they recall of associations. -/
structure Machine.Recalls (M N : Machine) : Prop where
  system : M.system.Recalls N.system
  contexts : M.contexts = N.contexts
  requests : List.Forall₂ Request.Recalls M.requests N.requests

lemma Context.recalls_drop {s s' : System} (h : s.Recalls s') (c : Context) :
    (c.drop s).Recalls (c.drop s') :=
  (ContextOperation.recalls_apply h c .suspend).2

/-- A completion through a context. -/
lemma Context.recalls_enter {s s' : System} (h : s.Recalls s') (c : Context) (how : Ending) :
    (c.enter how s).1 = (c.enter how s').1 ∧ (c.enter how s).2.Recalls (c.enter how s').2 := by
  unfold Context.enter Context.takeOwned
  cases c.current with
  | none => exact ⟨rfl, .done h _⟩
  | some r =>
    dsimp only
    rw [(h.tx r).owner, (h.tx r).id]
    by_cases ho : (s'.tx r).owner = some c.task
    · rw [if_pos ho, if_pos ho]
      exact ⟨rfl, unaware_proc how c.manager r _ _ (h.modifyTx ((h.tx r).release c.task))⟩
    · rw [if_neg ho, if_neg ho]
      exact ⟨rfl, .done h _⟩

namespace Machine

variable {M N : Machine} {i : Nat}

/-- Before anything was done. -/
lemma recalls_initial (clock seed : Nat) : (initial clock seed).Recalls (initial clock seed) where
  system := ⟨rfl, rfl, fun _ => .refl nofun⟩
  contexts := rfl
  requests := .nil

lemma Recalls.context? (h : M.Recalls N) (k : Nat) : M.context? k = N.context? k := by
  rw [Machine.context?, Machine.context?, h.contexts]

lemma Recalls.request? (h : M.Recalls N) (i : Nat) :
    (M.requests[i]? = none ∧ N.requests[i]? = none) ∨
    ∃ x y, M.requests[i]? = some x ∧ N.requests[i]? = some y ∧ x.Recalls y := by
  have hlength := h.requests.length_eq
  rcases lt_or_ge i M.requests.length with hi | hi
  · have hi' : i < N.requests.length := hlength ▸ hi
    exact .inr ⟨_, _, List.getElem?_eq_getElem hi, List.getElem?_eq_getElem hi',
      h.requests.get hi hi'⟩
  · exact .inl ⟨List.getElem?_eq_none hi, List.getElem?_eq_none (hlength ▸ hi)⟩

/-- A request is made in both. -/
lemma Recalls.append (h : M.Recalls N) {s s' : System} {x y : Request} (hs : s.Recalls s')
    (hx : x.Recalls y) {cs cs' : List (Option Context)} (hc : cs = cs') :
    (⟨s, cs, M.requests ++ [x]⟩ : Machine).Recalls ⟨s', cs', N.requests ++ [y]⟩ :=
  ⟨hs, hc, List.rel_append h.requests (.cons hx .nil)⟩

/-- An open question is answered in both. -/
lemma Recalls.hear (h : M.Recalls N) (i : Nat) (reply : Reply) :
    (M.hear i reply).Recalls (N.hear i reply) ∧
      M.heard (.answer i reply) = N.heard (.answer i reply) := by
  rcases h.request? i with ⟨hx, hy⟩ | ⟨x, y, hx, hy, hxy⟩
  · simp only [Machine.hear, heard, hx, hy]
    exact ⟨h, trivial⟩
  · have hprogress := hxy.progress
    generalize hd : x.progress = d, hd' : y.progress = d' at hprogress
    cases hprogress with
    | done hs result =>
      simp only [Machine.hear, heard, hx, hy, hd, hd']
      exact ⟨h, trivial⟩
    | @ask s s' q next next' hs hnext =>
      cases ha : q.answer? reply with
      | none =>
        simp only [Machine.hear, heard, hx, hy, hd, hd', ha]
        exact ⟨h, trivial⟩
      | some a =>
        rw [hear_of_ask hx hd ha, hear_of_ask hy hd' ha, heard_of_ask hx hd ha,
          heard_of_ask hy hd' ha, hxy.tx]
        have hd := hnext _ _ a h.system
        exact ⟨⟨hd.system, h.contexts, forall₂_set h.requests i (hxy.resume q a _ _ hd)⟩, rfl⟩

/-- An act that is done in both. -/
lemma Recalls.perform (h : M.Recalls N) {a : Act} (ha : M.associates a = false)
    (hr : M.repeats a = false) :
    (M.perform a).Recalls (N.perform a) ∧ M.heard a = N.heard a := by
  cases a with
  | operate o =>
    refine ⟨⟨Operation.recalls_apply h.system ?_ ?_, h.contexts, h.requests⟩, rfl⟩
    · rintro r a rfl u hu
      rw [associates_enlist.mpr ⟨u, hu⟩] at ha
      cases ha
    · rintro r k flag rfl
      cases flag with
      | success => cases ha
      | fail =>
        refine ⟨rfl, fun u hu => ?_⟩
        by_contra hany
        rw [repeats_delist.mpr ⟨⟨u, hu⟩, Bool.not_eq_false _ ▸ hany⟩] at hr
        cases hr
  | openContext m =>
    have htask : M.system.nextTask = N.system.nextTask := by rw [h.system.same]
    refine ⟨⟨h.system.map (f := fun s => (Context.new m s).2) fun _ _ => rfl, ?_, h.requests⟩, rfl⟩
    change M.contexts ++ [some ⟨m, ⟨M.system.nextTask⟩, none, none⟩] = _
    rw [htask, h.contexts]
    rfl
  | useContext k o =>
    have hrefers : o.Refers M.system ↔ o.Refers N.system := by
      cases o with
      | resume r =>
        rw [ContextOperation.Refers, ContextOperation.Refers, h.system.size]
      | _ => exact Iff.rfl
    refine ⟨?_, rfl⟩
    rw [Machine.perform, Machine.perform]
    by_cases ho : o.Refers M.system
    · rw [if_pos ho, if_pos (hrefers.mp ho), Machine.useContext, Machine.useContext, ← h.contexts]
      split
      next c hc =>
        obtain ⟨hctx, hs⟩ := ContextOperation.recalls_apply h.system c o
        exact ⟨hs, by rw [hctx], h.requests⟩
      next => exact h
    · rw [if_neg ho, if_neg (mt hrefers.mpr ho)]
      exact h
  | dropContext k =>
    refine ⟨?_, rfl⟩
    rw [Machine.perform, Machine.perform, Machine.dropContext, Machine.dropContext, h.context?]
    split
    next c hc => exact ⟨Context.recalls_drop h.system c, by rw [h.contexts], h.requests⟩
    next => exact h
  | request how m r =>
    refine ⟨?_, rfl⟩
    rw [Machine.perform, Machine.perform]
    by_cases hlt : r < M.system.transactions.size
    · have hd := unaware_proc how m r _ _ h.system
      rw [request_of_lt hlt, request_of_lt (h.system.size ▸ hlt)]
      exact h.append hd.system (Request.recalls_start how m r _ _ hd) h.contexts
    · rw [Machine.request, Machine.request, if_neg hlt, if_neg (h.system.size ▸ hlt)]
      exact h
  | requestWithin how k =>
    refine ⟨?_, rfl⟩
    rw [Machine.perform, Machine.perform, Machine.requestWithin, Machine.requestWithin, h.context?,
      ← h.system.size, ← h.contexts]
    split
    next c hc =>
      split
      next r hcurrent =>
        split
        next hlt =>
          obtain ⟨hctx, hd⟩ := Context.recalls_enter h.system c how
          exact h.append hd.system (Request.recalls_start how _ r _ _ hd) (by rw [hctx])
        next => exact h
      next => exact h
    next => exact h
  | answer i reply => exact h.hear i reply

/-- An act that is left out. -/
lemma Recalls.omit (h : M.Recalls N) {a : Act} (ha : M.superfluous a = true) :
    (M.perform a).Recalls N ∧ M.heard a = [] := by
  rw [superfluous] at ha
  have hleft : ∀ {o : Operation}, (o.apply M.system).Recalls N.system →
      (M.perform (.operate o)).Recalls N ∧ M.heard (.operate o) = [] :=
    fun hs => ⟨⟨hs, h.contexts, h.requests⟩, rfl⟩
  cases a with
  | operate o =>
    cases o with
    | enlist r b =>
      have hrepeats : M.repeats (.operate (.enlist r b)) = false := rfl
      rw [hrepeats, Bool.or_false] at ha
      obtain ⟨u, hu⟩ := associates_enlist.mp ha
      refine hleft ?_
      rw [Operation.apply, hu]
      exact h.system.left ((h.system.tx r).enlist_left hu)
    | delist r k flag =>
      refine hleft ?_
      rw [Operation.apply]
      cases hd : (M.system.tx r).delist k flag with
      | error e => exact h.system
      | ok x =>
        obtain ⟨found, u⟩ := x
        cases flag with
        | success => exact h.system.left ((h.system.tx r).delist_left hd)
        | fail =>
          have hfail : M.associates (.operate (.delist r k .fail)) = false := rfl
          rw [hfail, Bool.false_or] at ha
          obtain ⟨⟨u', hu'⟩, -⟩ := repeats_delist.mp ha
          cases hd.symm.trans hu'
          -- what was found ended is left as it was, also if the caller reports a failure
          rw [Transaction.delist_eq_self hu']
          exact h.system.left (h.system.tx r)
    | _ => cases ha
  | _ => cases ha

/-- With all these left out, a program hears the same and comes to the same. -/
lemma Recalls.run (h : M.Recalls N) (as : List Act) :
    (M.run as).Recalls (N.run (M.without superfluous as)) ∧
      M.transcript as = N.transcript (M.without superfluous as) := by
  induction as generalizing M N with
  | nil => exact ⟨h, rfl⟩
  | cons a as ih =>
    rw [run_cons, transcript, without]
    split
    next ha =>
      obtain ⟨hperform, hheard⟩ := h.omit ha
      rw [hheard]
      exact ih hperform
    next ha =>
      rw [Bool.not_eq_true, superfluous, Bool.or_eq_false_iff] at ha
      obtain ⟨hperform, hheard⟩ := h.perform ha.1 ha.2
      rw [run_cons, transcript, hheard, (ih hperform).2]
      exact ⟨(ih hperform).1, rfl⟩

end Machine

end TwoPhaseCommit
