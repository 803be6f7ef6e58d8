import Mathlib.Data.List.Forall2
import TwoPhaseCommit.Proofs.Alone
import TwoPhaseCommit.Proofs.Ledger

/-!
# Isolation

Transactions do not interfere. Whatever a program does, there is a program with a single
transaction, in which all that is about others is erased, and what there is to see of the
transaction is the same in both: its state and the requests to complete it, with their results
(`Machine.account`), all that is asked and answered about it (`Machine.transcript`), and so its
records. `Machine.Isolates` is what the two programs have in common on the way.
-/

namespace TwoPhaseCommit

/-! ### What there is to see -/

/-- The question that is open. -/
def Dialogue.question? {α : Type} : Dialogue α → Option Question
  | done _ _ => none
  | ask _ q _ => some q

/-- What there is to see of a request to complete a transaction: what was asked and answered so far,
and then the question that is open, or the result. -/
structure Story where
  how : Ending
  manager : ManagerRef
  exchanges : List Exchange
  question : Option Question
  result : Option (Except TxError Unit)

def Request.story (x : Request) : Story :=
  ⟨x.how, x.manager, x.exchanges, x.progress.question?, x.progress.result?⟩

/-- The story as it would be of a transaction of another name. -/
def Story.named (id : TxId) (y : Story) : Story where
  how := y.how
  manager := y.manager
  exchanges := y.exchanges.map (Exchange.named id)
  question := y.question.map (Question.named id)
  result := y.result.map (Except.mapError (TxError.named id))

/-- A transaction as it is left for now, and what has become of the requests to complete it. -/
structure Account where
  transaction : Transaction
  stories : List Story

def Account.named (id : TxId) (x : Account) : Account :=
  ⟨x.transaction.named id, x.stories.map (Story.named id)⟩

namespace Machine

/-- All that there is to see of a transaction. -/
def account (M : Machine) (r : TxRef) : Account := ⟨M.system.tx r, (M.on r).map Request.story⟩

/-- What was asked and answered about one transaction. -/
def about (r : TxRef) (es : List (TxRef × Exchange)) : List Exchange :=
  (es.filter (·.1 = r)).map (·.2)

end Machine

/-! ### Two requests -/

/-- Two requests in which the same is said and done, but for the name of the transaction. -/
structure Request.Alike (id : TxId) (r : TxRef) (x y : Request) : Prop where
  how : y.how = x.how
  manager : y.manager = x.manager
  left : x.tx = r
  right : y.tx = 0
  exchanges : x.exchanges = y.exchanges.map (Exchange.named id)
  progress : x.progress.Alike id r 0 (Completion.Renames id) y.progress

namespace Request

variable {id : TxId} {r : TxRef} {x y : Request} {s t : System}

lemma Alike.story (h : x.Alike id r y) : x.story = y.story.named id := by
  have hprogress := h.progress
  simp only [Request.story, Story.named, h.how, h.manager, h.exchanges]
  generalize x.progress = d, y.progress = e at hprogress
  cases hprogress with
  | done _ ha =>
    simp only [Dialogue.question?, Dialogue.result?, Option.map_none, Option.map_some]
    rw [ha]
  | ask _ _ => rfl

lemma alike_start (how : Ending) (m : ManagerRef) (s' t' : System)
    (h : System.Alike id r 0 s t) :
    (start how m r s' (how.proc m r s)).Alike id r (start how m 0 t' (how.proc m 0 t)) where
  how := rfl
  manager := rfl
  left := rfl
  right := rfl
  exchanges := rfl
  progress := by
    cases how with
    | commit => exact alike_commit m s t h
    | rollback => exact alike_rollback m s t h

end Request

/-- Two lists, one of which has the like of each request at the same place. -/
lemma exists_alike {id : TxId} {r : TxRef} {xs ys : List Request}
    (h : List.Forall₂ (Request.Alike id r) xs ys) {n : Nat} {x : Request} (hx : xs[n]? = some x) :
    ∃ y : Request, ys[n]? = some y ∧ x.Alike id r y := by
  induction h generalizing n with
  | nil => simp at hx
  | cons hxy _ ih =>
    cases n with
    | zero =>
      cases hx
      exact ⟨_, rfl, hxy⟩
    | succ n => exact ih hx

lemma forall₂_set {α : Type} {R : α → α → Prop} {xs ys : List α} {x y : α}
    (h : List.Forall₂ R xs ys) (i : Nat) (hx : R x y) :
    List.Forall₂ R (xs.set i x) (ys.set i y) := by
  induction h generalizing i with
  | nil => exact .nil
  | cons hxy h ih =>
    cases i with
    | zero => exact .cons hx h
    | succ i => exact .cons hxy (ih i)

namespace Machine

variable {id : TxId} {r : TxRef} {M M' N : Machine} {s t : System} {k i : Nat} {c c' : Context}
  {x : Request}

/-- The place of a request on `r`, among those on `r`, is taken by another request on `r`. -/
lemma filter_set_of_eq {y : Request} (hi : M.requests[i]? = some x) (hx : x.tx = r)
    (hy : y.tx = r) :
    (M.on r)[M.rank r i]? = some x ∧
      (M.requests.set i y).filter (·.tx = r) = (M.on r).set (M.rank r i) y := by
  obtain ⟨ys, zs, hsplit, hlen⟩ := exists_split hi
  have hrank : M.rank r i = (ys.filter (·.tx = r)).length := by
    rw [rank, hsplit, ← hlen, List.take_left']
    rfl
  have hon : M.on r = ys.filter (·.tx = r) ++ x :: zs.filter (·.tx = r) := by
    rw [on, hsplit]
    simp [List.filter_append, hx]
  rw [hon, hrank, set_split y rfl, hsplit, set_split y hlen]
  simp [List.filter_append, hy]

/-! ### Two programs -/

/-- Each context that there is has its like. -/
structure Paired (r : TxRef) (s : System) (cs cs' : List (Option Context)) : Prop where
  length : cs'.length = cs.length
  alike : ∀ (k : Nat) (c : Context), cs[k]? = some (some c) →
    ∃ c' : Context, cs'[k]? = some (some c') ∧ c.Alike r s c'

/-- The second program has come to what the first has come to, as far as it is about `r`. -/
structure Isolates (id : TxId) (r : TxRef) (M N : Machine) : Prop where
  system : M.system.Alone id r N.system
  contexts : Paired r M.system M.contexts N.contexts
  requests : List.Forall₂ (Request.Alike id r) (M.on r) N.requests

variable {cs cs' : List (Option Context)}

/-- One context of each takes a new state, alike or none. -/
lemma Paired.set (h : Paired r s cs cs') (hk : cs'[k]? = some (some c')) {d d' : Option Context}
    (hd : ∀ e, d = some e → ∃ e', d' = some e' ∧ e.Alike r s e') :
    Paired r s (cs.set k d) (cs'.set k d') where
  length := by
    rw [List.length_set, List.length_set]
    exact h.length
  alike j e he := by
    rcases live_set_cases he with ⟨hj, hej⟩ | ⟨rfl, hej⟩
    · obtain ⟨e', he', ha⟩ := h.alike j e hej
      exact ⟨e', (List.getElem?_set_ne hj.symm).trans he', ha⟩
    · obtain ⟨e', rfl, ha⟩ := hd e hej
      exact ⟨e', List.getElem?_set_self (List.getElem?_eq_some_iff.mp hk).1, ha⟩

lemma Paired.concat (h : Paired r s cs cs') (hc : c.Alike r s c') :
    Paired r s (cs ++ [some c]) (cs' ++ [some c']) where
  length := by simp [h.length]
  alike j e he := by
    rcases live_concat_cases he with hj | ⟨rfl, rfl⟩
    · obtain ⟨e', he', ha⟩ := h.alike j e hj
      exact ⟨e', (List.getElem?_append_left (List.getElem?_eq_some_iff.mp he').1).trans he', ha⟩
    · exact ⟨c', by rw [← h.length, List.getElem?_concat_length], hc⟩

/-- What holds the only transaction goes on to hold it, or that has ended and stays so. -/
lemma Isolates.paired (h : M.Isolates id r N) (hN : N.Reachable) (hl : Lasts M.system s) :
    Paired r s M.contexts N.contexts where
  length := h.contexts.length
  alike k c hk := by
    obtain ⟨c', hk', hc⟩ := h.contexts.alike k c hk
    refine ⟨c', hk', hc.manager, hc.task, hc.timeout, hc.holds, fun q hq => ?_⟩
    have hlt : r < M.system.transactions.size :=
      h.system.begun_iff.mp ((Nat.zero_le q).trans_lt (hN.associated.owns k c' q hk' hq).1)
    exact ⟨(hc.held q hq).1, (hc.held q hq).2.imp_right (hl r hlt)⟩

/-- What is erased from the first program is of no account. -/
lemma Isolates.stays (h : M.Isolates id r N) (hs : M.Stays r M') : M'.Isolates id r N where
  system := h.system.stays hs.system
  contexts := {
    length := h.contexts.length.trans hs.length.symm
    alike := fun k d hd => by
      obtain ⟨c, hk, hlets⟩ := hs.contexts k d hd
      obtain ⟨c', hk', hc⟩ := h.contexts.alike k c hk
      exact ⟨c', hk', hc.lets hlets hs.system.tx⟩ }
  requests := hs.on.symm ▸ h.requests

/-- The same is requested of both. -/
lemma Isolates.concat (h : M.Isolates id r N) (hs : s.Alone id r t) (hcs : Paired r s cs cs')
    {y : Request} (hxy : x.Alike id r y) :
    Isolates id r ⟨s, cs, M.requests ++ [x]⟩ ⟨t, cs', N.requests ++ [y]⟩ where
  system := hs
  contexts := hcs
  requests := by
    have hon : (M.requests ++ [x]).filter (·.tx = r) = M.on r ++ [x] := by
      simp [on, List.filter_append, hxy.left]
    rw [on, hon]
    exact List.rel_append h.requests (.cons hxy .nil)

lemma lasts_release (s : System) (q : TxRef) (task : TaskId) :
    Lasts s (s.modifyTx q (·.release task)) := by
  intro r _ ht
  rw [System.tx_modifyTx]
  split
  · rw [Transaction.release]
    split
    · exact ht
    · exact ht
  · exact ht

/-- An answer begins no transaction. -/
lemma size_answer (hM : M.Reachable) (hi : M.requests[i]? = some x) {s₀ : System} {q : Question}
    {next : System → q.Answer → Dialogue (Except TxError Unit)}
    (hp : x.progress = .ask s₀ q next) (a : q.Answer) :
    (next M.system a).system.transactions.size = M.system.transactions.size := by
  obtain ⟨owner, hsound⟩ := hM.sound
  have hlt := hsound.refers i x hi
  have hgrows := (hM.grows (.single (.answer hi hp a))).size_le
  -- a transaction that was begun meanwhile would be one that the answer is not about
  refine hgrows.antisymm' (not_lt.mp fun hsize => ?_)
  exact absurd ((stays_answer hM hi hlt.ne hp a).begun.mp hsize) (lt_irrefl _)

/-- A request on the transaction has its like, at its place among those on the transaction. -/
lemma Isolates.like (h : M.Isolates id r N) (hi : M.requests[i]? = some x) (hx : x.tx = r) :
    ∃ y, N.requests[M.rank r i]? = some y ∧ x.Alike id r y :=
  exists_alike h.requests (filter_set_of_eq (y := x) hi hx hx).1

/-- The request that is answered has its like, which is answered, too. -/
lemma Isolates.answer (hM : M.Reachable) (hN : N.Reachable) (h : M.Isolates id r N)
    (hi : M.requests[i]? = some x) (hx : x.tx = r) (reply : Reply) :
    (M.hear i reply).Isolates id r (N.hear (M.rank r i) reply) := by
  obtain ⟨y, hj, hxy⟩ := h.like hi hx
  have hlt : r < M.system.transactions.size := by
    obtain ⟨owner, hsound⟩ := hM.sound
    exact hx ▸ hsound.refers i x hi
  obtain ⟨d, hd⟩ : ∃ d, x.progress = d := ⟨_, rfl⟩
  obtain ⟨e, he⟩ : ∃ e, y.progress = e := ⟨_, rfl⟩
  have hprogress := hxy.progress
  rw [hd, he] at hprogress
  cases hprogress with
  | done _ _ => simpa only [hear, hi, hj, hd, he] using h
  | @ask s₀ t₀ p next next' _ hnext =>
    -- the reply fits both questions or neither
    rcases p.answer?_named_cases id reply with ⟨ha, hb⟩ | ⟨a, b, ha, hb, hab⟩
    · simpa only [hear, hi, hj, hd, he, ha, hb] using h
    · have hnext' := hnext M.system N.system a b (h.system.alike hlt) hab
      obtain ⟨-, hset⟩ := filter_set_of_eq
        (y := x.resume (p.named id) a M.system (next M.system a)) hi hx hx
      rw [hear_of_ask hi hd ha, hear_of_ask hj he hb]
      refine ⟨.during hnext'.system ?_, h.paired hN (hM.lasts (.answer hi hd a)), ?_⟩
      · rw [size_answer hN hj he b]
        exact h.system.size_eq hlt
      · rw [on, hset]
        refine forall₂_set h.requests _ ⟨hxy.how, hxy.manager, hx, hxy.right, ?_, hnext'⟩
        simp only [Request.resume, List.map_append, hxy.exchanges]
        rw [Exchange.note_named rfl hab]

/-- What is heard of the transaction in the first program is heard in the second. -/
lemma Isolates.heard_answer (h : M.Isolates id r N) (hi : M.requests[i]? = some x) (hx : x.tx = r)
    (reply : Reply) :
    M.heard (.answer i reply) =
      (N.heard (.answer (M.rank r i) reply)).map fun e => (r, e.2.named id) := by
  obtain ⟨y, hj, hxy⟩ := h.like hi hx
  obtain ⟨d, hd⟩ : ∃ d, x.progress = d := ⟨_, rfl⟩
  obtain ⟨e, he⟩ : ∃ e, y.progress = e := ⟨_, rfl⟩
  have hprogress := hxy.progress
  rw [hd, he] at hprogress
  cases hprogress with
  | done _ _ => simp only [heard, hi, hj, hd, he, List.map_nil]
  | @ask s₀ t₀ p next next' _ hnext =>
    rcases p.answer?_named_cases id reply with ⟨ha, hb⟩ | ⟨a, b, ha, hb, hab⟩
    · simp only [heard, hi, hj, hd, he, ha, hb, List.map_nil]
    · rw [heard_of_ask hi hd ha, heard_of_ask hj he hb, hx, Exchange.note_named rfl hab,
        List.map_map, List.map_map]
      rfl

/-- An operation of a context is done through its like. -/
lemma Isolates.useContext (hM : M.Reachable) (hN : N.Reachable) (h : M.Isolates id r N)
    (hid : id = .mint M.system.seed r) {o o' : ContextOperation}
    (hk : M.contexts[k]? = some (some c)) (ho : o.own? r c M.system = some o') :
    (M.perform (.useContext k o)).Isolates id r (N.perform (.useContext k o')) := by
  obtain ⟨c', hk', halike⟩ := h.contexts.alike k c hk
  obtain ⟨hrefers, hrefers'⟩ := ContextOperation.refers_of_own? h.system ho
  obtain ⟨hs, hcontext⟩ := ContextOperation.alone_apply h.system hid halike
    (fun q hq => (hN.associated.owns k c' q hk' hq).1) ho
  rw [Machine.perform, Machine.perform, if_pos hrefers, if_pos hrefers', useContext_of_some hk,
    useContext_of_some hk']
  refine ⟨hs, (h.paired hN (hM.lasts (.useContext hk o hrefers))).set hk' ?_, h.requests⟩
  rintro e ⟨⟩
  exact ⟨_, rfl, hcontext⟩

/-- A context that holds the transaction is dropped with its like. -/
lemma Isolates.dropContext (hM : M.Reachable) (hN : N.Reachable) (h : M.Isolates id r N)
    (hk : M.contexts[k]? = some (some c)) (hr : c.current = some r) :
    (M.dropContext k).Isolates id r (N.dropContext k) := by
  obtain ⟨c', hk', hc⟩ := h.contexts.alike k c hk
  rw [dropContext_of_some hk, dropContext_of_some hk']
  refine ⟨?_, (h.paired hN (hM.lasts (.dropContext hk))).set hk' nofun, h.requests⟩
  rw [Context.drop, Context.drop, Context.suspend_of_some hr,
    Context.suspend_of_some (hc.holds hr), hc.task]
  dsimp only
  exact h.system.modifyTx fun y => y.release_named _

lemma Isolates.request (h : M.Isolates id r N) (how : Ending) (m : ManagerRef) :
    (M.request how m r).Isolates id r (N.request how m 0) := by
  by_cases hlt : r < M.system.transactions.size
  · have hs := h.system.alike hlt
    rw [request_of_lt hlt, request_of_lt hs.right, (station_proc how m rfl).1,
      (station_proc how m rfl).1]
    exact h.concat h.system h.contexts (Request.alike_start how m _ _ hs)
  · have hlt' : ¬0 < N.system.transactions.size := fun h' => hlt (h.system.begun_iff.mp h')
    rw [Machine.request, Machine.request, if_neg hlt, if_neg hlt']
    exact h

/-- A context that holds the transaction gives it up for the request, and so does its like. -/
lemma Isolates.requestWithin (hM : M.Reachable) (hN : N.Reachable) (h : M.Isolates id r N)
    (how : Ending) (hk : M.contexts[k]? = some (some c)) (hr : c.current = some r) :
    (M.requestWithin how k).Isolates id r (N.requestWithin how k) := by
  obtain ⟨c', hk', hc⟩ := h.contexts.alike k c hk
  have hr' := hc.holds hr
  have hlt := (hM.associated.owns k c r hk hr).1
  have hlt' := (hN.associated.owns k c' 0 hk' hr').1
  have hs : (M.system.modifyTx r (·.release c.task)).Alone id r
      (N.system.modifyTx 0 (·.release c.task)) :=
    h.system.modifyTx fun y => y.release_named c.task
  have hs' := hs.alike (by rw [System.size_modifyTx]; exact hlt)
  rw [requestWithin_of_some hk hr hlt, requestWithin_of_some hk' hr' hlt',
    hM.associated.enter hk hr how, hN.associated.enter hk' hr' how, (station_proc how _ rfl).1,
    (station_proc how _ rfl).1, hc.task, hc.manager]
  refine h.concat hs ((h.paired hN (lasts_release M.system r c.task)).set hk' ?_)
    (Request.alike_start how c.manager _ _ hs')
  rintro e ⟨⟩
  exact ⟨_, rfl, rfl, rfl, hc.timeout, nofun, nofun⟩

/-- What is about the transaction is done in both programs. -/
lemma Isolates.perform (hM : M.Reachable) (hN : N.Reachable) (h : M.Isolates id r N)
    (hid : id = .mint M.system.seed r) {a b : Act} (ha : a.own? r M = some b) :
    (M.perform a).Isolates id r (N.perform b) := by
  cases a with
  | operate o =>
    obtain ⟨o', ho, rfl⟩ := Option.map_eq_some_iff.mp ha
    exact ⟨o.alone_apply h.system hid hN.minted ho, h.paired hN (hM.lasts (.operate o)),
      h.requests⟩
  | openContext m =>
    cases ha
    have hl := h.system.level
    refine ⟨?_, ?_, h.requests⟩
    · exact h.system.of_level ⟨hl.clock, hl.seed, congrArg (· + 1) hl.nextTask, hl.size, hl.manager⟩
        rfl rfl fun ha => ha
    · refine (h.paired hN (hM.lasts (.openContext m))).concat ?_
      exact ⟨rfl, congrArg TaskId.mk hl.nextTask, rfl, nofun, nofun⟩
  | useContext k o =>
    obtain ⟨c, hc, hown⟩ := Option.bind_eq_some_iff.mp ha
    obtain ⟨o', ho, rfl⟩ := Option.map_eq_some_iff.mp hown
    exact h.useContext hM hN hid (context?_eq_some_iff.mp hc) ho
  | dropContext k =>
    rw [Act.own?] at ha
    split at ha
    next hheld =>
      cases ha
      obtain ⟨c, hk, hr⟩ := held?_eq_some_iff.mp hheld
      exact h.dropContext hM hN hk hr
    next => cases ha
  | request how m q =>
    rw [Act.own?] at ha
    split at ha
    next hq =>
      cases ha
      exact hq ▸ h.request how m
    next => cases ha
  | requestWithin how k =>
    rw [Act.own?] at ha
    split at ha
    next hheld =>
      cases ha
      obtain ⟨c, hk, hr⟩ := held?_eq_some_iff.mp hheld
      exact h.requestWithin hM hN how hk hr
    next => cases ha
  | answer i reply =>
    rw [Act.own?] at ha
    split at ha
    next hi =>
      cases ha
      obtain ⟨x, hi, hx⟩ := Option.map_eq_some_iff.mp hi
      exact h.answer hM hN hi hx reply
    next => cases ha

lemma isolates_initial (id : TxId) (r : TxRef) (clock seed : Nat) :
    (initial clock seed).Isolates id r (initial clock seed) where
  system := .before ⟨rfl, rfl, rfl, rfl, fun _ => ⟨rfl, rfl, rfl⟩⟩ (Nat.zero_le r) rfl fun _ => rfl
  contexts := ⟨rfl, nofun⟩
  requests := .nil

/-! ### Transcripts -/

lemma about_append (r : TxRef) (es es' : List (TxRef × Exchange)) :
    about r (es ++ es') = about r es ++ about r es' := by
  rw [about, List.filter_append, List.map_append, about, about]

lemma about_eq_nil {es : List (TxRef × Exchange)} (h : ∀ e ∈ es, e.1 ≠ r) : about r es = [] := by
  rw [about, List.filter_eq_nil_iff.mpr fun e he => by simpa using h e he, List.map_nil]

/-- Nothing about the transaction is heard in what is erased. -/
lemma about_heard_eq_nil {a : Act} (ha : a.own? r M = none) : about r (M.heard a) = [] := by
  refine about_eq_nil fun e he hr => ?_
  obtain ⟨i, reply, x, rfl, hi, hx, -⟩ := of_mem_heard he
  simp [Act.own?, hi, ← hx, hr] at ha

/-- What is heard of the transaction is the same in both programs. -/
lemma Isolates.about_heard (h : M.Isolates id r N) {a b : Act} (ha : a.own? r M = some b) :
    about r (M.heard a) = ((N.heard b).map (·.2)).map (Exchange.named id) := by
  cases a with
  | answer i reply =>
    rw [Act.own?] at ha
    split at ha
    next hi =>
      cases ha
      obtain ⟨x, hi, hx⟩ := Option.map_eq_some_iff.mp hi
      rw [h.heard_answer hi hx reply, about, List.filter_map, List.map_map]
      have hall : ((fun e : TxRef × Exchange => decide (e.1 = r)) ∘
          fun e : TxRef × Exchange => (r, e.2.named id)) = fun _ => true := by
        funext e
        exact decide_eq_true rfl
      rw [hall, List.filter_true, List.map_map]
      rfl
    next => cases ha
  | operate o =>
    obtain ⟨o', -, rfl⟩ := Option.map_eq_some_iff.mp ha
    rfl
  | openContext m =>
    cases ha
    rfl
  | useContext k o =>
    obtain ⟨c, -, hown⟩ := Option.bind_eq_some_iff.mp ha
    obtain ⟨o', -, rfl⟩ := Option.map_eq_some_iff.mp hown
    rfl
  | _ =>
    rw [Act.own?] at ha
    split at ha
    · cases ha
      rfl
    · cases ha

/-- Whatever the first program does, the second does what is left of it, and the same is asked and
answered about the transaction. -/
lemma Isolates.run (hM : M.Reachable) (hN : N.Reachable) (h : M.Isolates id r N)
    (hid : id = .mint M.system.seed r) (as : List Act) :
    (M.run as).Isolates id r (N.run (own r M as)) ∧
      about r (M.transcript as) =
        ((N.transcript (own r M as)).map (·.2)).map (Exchange.named id) := by
  induction as generalizing M N with
  | nil => exact ⟨h, rfl⟩
  | cons a as ih =>
    have hid' : id = .mint (M.perform a).system.seed r := by rw [hM.seed_perform, hid]
    rw [run_cons, Machine.transcript, about_append, own]
    cases ha : a.own? r M with
    | none =>
      -- the second program stands still
      rw [about_heard_eq_nil ha]
      exact ih (hM.perform a) hN (h.stays (stays_perform hM ha)) hid'
    | some b =>
      obtain ⟨hrun, htranscript⟩ :=
        ih (hM.perform a) (hN.perform b) (h.perform hM hN hid ha) hid'
      refine ⟨hrun, ?_⟩
      rw [h.about_heard ha, htranscript, ← List.map_append, ← List.map_append]
      rfl

/-! ### Records -/

lemma written_named (es : List Exchange) :
    written (es.map (Exchange.named id)) = (written es).map (LogRecord.named id) := by
  induction es with
  | nil => rfl
  | cons e es ih =>
    rw [List.map_cons, written_cons, written_cons, ih]
    obtain ⟨q, a⟩ := e
    cases q with
    | append log r => cases a <;> rfl
    | _ => rfl

/-- Of records that bear the id of the transaction they are about, those of one id are those about
one transaction. -/
lemma written_about {es : List (TxRef × Exchange)}
    (h : ∀ e ∈ es, ∀ y, e.2.written? = some y → (y.tx = id ↔ e.1 = r)) :
    (written (es.map (·.2))).filter (·.tx = id) = written (about r es) := by
  induction es with
  | nil => rfl
  | cons e es ih =>
    obtain ⟨hy, hes⟩ := List.forall_mem_cons.mp h
    have hhead : (e.2.written?.toList).filter (·.tx = id) = written (about r [e]) := by
      by_cases hr : e.1 = r
      · cases hw : e.2.written? with
        | none => simp [about, hr, written, hw]
        | some y => simp [about, hr, written, hw, (hy y hw).mpr hr]
      · cases hw : e.2.written? with
        | none => simp [about, hr]
        | some y => simp [about, hr, mt (hy y hw).mp hr]
    rw [List.map_cons, written_cons, List.filter_append, hhead, ih hes, ← written_append,
      ← about_append]
    rfl

/-- A record that is written bears the id of the transaction that it is about. -/
lemma Reachable.tx_of_heard (hM : M.Reachable) {a : Act} {e : TxRef × Exchange}
    (he : e ∈ M.heard a) {y : LogRecord} (hy : e.2.written? = some y) :
    e.1 < M.system.transactions.size ∧ y.tx = .mint M.system.seed e.1 := by
  obtain ⟨i, reply, x, rfl, hi, hx, z, hz, hzx, hez⟩ := of_mem_heard he
  obtain ⟨owner, hsound⟩ := hM.sound
  have hlt : e.1 < M.system.transactions.size := hx ▸ hsound.refers i x hi
  have hM' := hM.perform (.answer i reply)
  have hlt' := hlt.trans_le (hM.grows (M.steps_perform (.answer i reply))).size_le
  refine ⟨hlt, ?_⟩
  rw [hM'.tx_of_written hz (List.mem_filterMap.mpr ⟨e.2, hez, hy⟩), hzx, ← hx, hM'.minted hlt',
    hM.seed_perform]

lemma Reachable.tx_of_transcript (hM : M.Reachable) {as : List Act} {e : TxRef × Exchange}
    (he : e ∈ M.transcript as) {y : LogRecord} (hy : e.2.written? = some y) :
    e.1 < (M.run as).system.transactions.size ∧ y.tx = .mint M.system.seed e.1 := by
  induction as generalizing M with
  | nil => cases he
  | cons a as ih =>
    rcases List.mem_append.mp he with he | he
    · obtain ⟨hlt, htx⟩ := hM.tx_of_heard he hy
      have hgrows := hM.grows (M.steps_run (a :: as))
      exact ⟨hlt.trans_le hgrows.size_le, htx⟩
    · rw [← hM.seed_perform a, run_cons]
      exact ih (hM.perform a) he

/-! ### Transactions do not interfere -/

lemma stories_alike {xs ys : List Request} (h : List.Forall₂ (Request.Alike id r) xs ys) :
    xs.map Request.story = (ys.map Request.story).map (Story.named id) := by
  induction h with
  | nil => rfl
  | cons hxy _ ih => rw [List.map_cons, List.map_cons, List.map_cons, ih, hxy.story]

lemma tx_alike {xs ys : List Request} (h : List.Forall₂ (Request.Alike id r) xs ys) :
    ∀ y ∈ ys, y.tx = 0 := by
  induction h with
  | nil => exact nofun
  | cons hxy _ ih => exact List.forall_mem_cons.mpr ⟨hxy.right, ih⟩

/-- In the second program all requests are on the only transaction. -/
lemma Isolates.on_eq (h : M.Isolates id r N) : N.on 0 = N.requests :=
  List.filter_eq_self.mpr fun y hy => decide_eq_true (tx_alike h.requests y hy)

/-- With all erased that is about other transactions, there is no other transaction, and what there
is to see of this one is the same, whatever the others do and whenever: its state, each request to
complete it with its result, and all that is asked and answered about it, in the order in which it
is. So are its records among all that are written, if ids are unique. -/
theorem isolated (clock seed : Nat) (as : List Act) {r : TxRef}
    (hr : r < ((initial clock seed).run as).system.transactions.size) :
    let alone := own r (initial clock seed) as
    let M := (initial clock seed).run as
    let N := (initial clock seed).run alone
    let id := (M.system.tx r).id
    let es := (initial clock seed).transcript as
    let es' := ((initial clock seed).transcript alone).map (·.2)
    N.system.transactions.size = 1 ∧
    M.account r = (N.account 0).named id ∧
    about r es = es'.map (Exchange.named id) ∧
    ((∀ q, q < M.system.transactions.size → q ≠ r → (M.system.tx q).id ≠ id) →
      (written (es.map (·.2))).filter (·.tx = id) = (written es').map (LogRecord.named id)) := by
  intro alone M N id es es'
  have hinitial := reachable_initial clock seed
  have hM : M.Reachable := hinitial.run as
  have hseed : M.system.seed = seed := hinitial.seed_run as
  have hid : id = .mint seed r := (hM.minted hr).trans (by rw [hseed])
  have hI := isolates_initial id r clock seed
  obtain ⟨h, htranscript⟩ : M.Isolates id r N ∧ about r es = es'.map (Exchange.named id) :=
    hI.run hinitial hinitial hid as
  refine ⟨h.system.size_eq hr, ?_, htranscript, fun hids => ?_⟩
  · rw [account, account, h.on_eq, stories_alike h.requests, (h.system.alike hr).tx]
    rfl
  · -- with unique ids a record names the transaction it was written for
    rw [← written_named, ← htranscript]
    refine written_about fun e he y hy => ?_
    obtain ⟨hlt, htx⟩ := hinitial.tx_of_transcript he hy
    refine ⟨fun hy => ?_, fun her => ?_⟩
    · by_contra hne
      refine hids e.1 hlt hne ?_
      rw [hM.minted hlt, hseed, ← hy, htx]
      rfl
    · rw [htx, her, hid]
      rfl

/-- The first participant of a transaction, when it is asked for its vote, commits another
transaction at the same manager. Then all agree, and in the end the second participant cannot be
reached. -/
def nested : List Act :=
  let turns : Nat → Nat → List Act := fun i n => List.replicate n (.answer i .turned)
  let begun : List Act :=
    [.operate (.addManager {} 0), .operate (.begin 0 none), .operate (.begin 0 none),
      .operate (.enlist 1 { ref := 0, id := ⟨"a"⟩ }),
      .operate (.enlist 1 { ref := 1, id := ⟨"b"⟩ }),
      .operate (.enlist 0 { ref := 0, id := ⟨"a"⟩ }), .request .commit 0 1]
  let inner : List Act :=
    .request .commit 0 0 :: turns 1 3 ++ .answer 1 (.done (.ok ())) :: turns 1 1 ++
      .answer 1 (.written (.ok ())) :: turns 1 2
  begun ++ turns 0 4 ++ inner ++ .answer 0 (.vote (.ok .commit)) :: turns 0 2 ++
    .answer 0 (.vote (.ok .commit)) :: turns 0 2 ++ .answer 0 (.written (.ok ())) :: turns 0 1 ++
    .answer 0 (.done (.ok ())) :: turns 0 1 ++
    .answer 0 (.done (.error (.unavailable "later"))) :: turns 0 1 ++
    .answer 0 (.written (.ok ())) :: turns 0 3

theorem isolated_nested :
    let alone := own 1 (initial 0 0) nested
    let M := (initial 0 0).run nested
    let N := (initial 0 0).run alone
    let es := (initial 0 0).transcript nested
    let es' := ((initial 0 0).transcript alone).map (·.2)
    1 < M.system.transactions.size ∧ N.system.transactions.size = 1 ∧
    M.requests.map (·.progress.result?) =
      [some (.error (.heuristicMixed (M.system.tx 1).id [⟨⟨"b"⟩, .unavailable "later"⟩])),
        some (.ok ())] ∧
    N.requests.map (·.progress.result?) =
      [some (.error (.heuristicMixed (N.system.tx 0).id [⟨⟨"b"⟩, .unavailable "later"⟩]))] ∧
    M.account 1 = (N.account 0).named (M.system.tx 1).id ∧
    about 1 es = es'.map (Exchange.named (M.system.tx 1).id) ∧
    (written (es.map (·.2))).filter (·.tx = (M.system.tx 1).id) =
      (written es').map (LogRecord.named (M.system.tx 1).id) := by
  have hr : 1 < ((initial 0 0).run nested).system.transactions.size := by decide +kernel
  obtain ⟨hone, haccount, htranscript, hrecords⟩ := isolated 0 0 nested hr
  exact ⟨hr, hone, by decide +kernel, by decide +kernel, haccount, htranscript,
    hrecords (by decide +kernel)⟩

end Machine

end TwoPhaseCommit
