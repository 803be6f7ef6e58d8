import TwoPhaseCommit.Proofs.Commit

/-!
# Requests from beginning to end

The own steps of a request are steps of the program, so that they can be set against whatever else
was done before and after. A request that is answered comes to its end, and the one that has taken
its transaction comes to one of the outcomes of a completion.
-/

namespace TwoPhaseCommit

open Completion (Early Outcome Polled)

/-! ### What a completion speaks of -/

/-- The transaction that a question is about. -/
def Question.tx? : Question → Option TxId
  | prepare _ id | commit _ id _ | rollback _ id => some id
  | append _ r => some r.tx
  | _ => none

/-- Whether a participant is called. -/
def Question.isCall : Question → Bool
  | prepare .. | commit .. | rollback .. => true
  | _ => false

/-- The calls to participants, in order. -/
def calls (es : List Exchange) : List Question := (es.map (·.question)).filter (·.isCall)

@[simp] lemma calls_append (es₁ es₂ : List Exchange) :
    calls (es₁ ++ es₂) = calls es₁ ++ calls es₂ := by
  simp [calls]

lemma calls_cons (e : Exchange) (es : List Exchange) :
    calls (e :: es) = if e.question.isCall then e.question :: calls es else calls es := by
  simp [calls, List.filter_cons]

lemma calls_of_apart {es : List Exchange} (h : ∀ e ∈ es, e.question.isCall = false) :
    calls es = [] := by
  simpa [calls] using h

namespace Completion

variable {c : Completion} {ps targets prepared : List Participant} {es : List Exchange}
  {fs : List HeuristicFailure}

/-- A question about the transaction of the completion, or about none; and if it is put to a log,
then to the log of the completion. -/
def Speaks (c : Completion) (q : Question) : Prop :=
  (∀ id, q.tx? = some id → id = c.id) ∧ ∀ l r, q = .append l r → l = c.log

lemma speaks_afterCompletion (x : Synchronization) (outcome : Status) :
    c.Speaks (.afterCompletion x outcome) :=
  ⟨nofun, nofun⟩

lemma Notifies.speaks {outcome : Status} (h : Notifies outcome es) :
    ∀ e ∈ es, c.Speaks e.question := by
  intro e he
  obtain ⟨x, hx⟩ := h.question e he
  rw [hx]
  exact speaks_afterCompletion ..

lemma Readies.speaks (h : Readies es) : ∀ e ∈ es, c.Speaks e.question := by
  intro e he
  obtain ⟨x, hx⟩ := h e he
  rw [hx]
  exact ⟨nofun, nofun⟩

@[simp] lemma speaks_prepare (k : AdapterKey) : c.Speaks (.prepare k c.id) :=
  ⟨fun _ h => (Option.some.inj h).symm, nofun⟩

@[simp] lemma speaks_commit (k : AdapterKey) (onePhase : Bool) :
    c.Speaks (.commit k c.id onePhase) :=
  ⟨fun _ h => (Option.some.inj h).symm, nofun⟩

@[simp] lemma speaks_rollback (k : AdapterKey) : c.Speaks (.rollback k c.id) :=
  ⟨fun _ h => (Option.some.inj h).symm, nofun⟩

@[simp] lemma speaks_append {r : LogRecord} (hr : r.tx = c.id) : c.Speaks (.append c.log r) :=
  ⟨fun _ h => (Option.some.inj h).symm.trans hr, by rintro l r' ⟨⟩; rfl⟩

lemma speaks_recording (d : Decision) (pending : List ResourceId) (time : UInt64)
    (a : Except StorageError Unit) : c.Speaks (c.recording d pending time a).question :=
  speaks_append rfl

lemma RollsBack.speaks (h : RollsBack c targets es fs) : ∀ e ∈ es, c.Speaks e.question := by
  refine h.forall_mem (fun _ _ => speaks_rollback _) (fun _ _ _ => speaks_recording ..)
    fun e x hx => ?_
  rw [hx]
  exact speaks_afterCompletion ..

lemma Votes.speaks {lastAgent : Option Participant} {unvoted : List Participant}
    {x : Except TxError (List Participant)} (h : Votes c lastAgent prepared unvoted es x) :
    ∀ e ∈ es, c.Speaks e.question :=
  h.forall_mem (fun _ _ => speaks_prepare _) fun _ _ _ h => h.speaks

lemma Decides.speaks {lastAgent : Option Participant} {x : Except TxError Unit}
    (h : Decides c prepared lastAgent es x) : ∀ e ∈ es, c.Speaks e.question := by
  cases h with
  | nobody => simp
  | commit _ => exact List.forall_mem_singleton.mpr (speaks_commit ..)
  | mixed h => exact List.forall_mem_cons.mpr ⟨speaks_commit .., h.speaks⟩
  | failed _ _ h => exact List.forall_mem_cons.mpr ⟨speaks_commit .., h.speaks⟩

lemma CarriesOut.speaks {lastAgent : Option Participant} {x : Except TxError Unit}
    (h : CarriesOut c lastAgent prepared es x) : ∀ e ∈ es, c.Speaks e.question := by
  cases h with
  | unwritten time e h => exact List.forall_mem_cons.mpr ⟨speaks_recording .., h.speaks⟩
  | nobody time hp h => exact List.forall_mem_cons.mpr ⟨speaks_recording .., h.speaks⟩
  | @told es₁ es₂ fs time time' a hp h₁ h₂ =>
    rw [List.cons_append]
    refine List.forall_mem_cons.mpr ⟨speaks_recording .., fun e he => ?_⟩
    rcases List.mem_append.mp he with he | he
    · obtain ⟨p, a, rfl⟩ := h₁.question e he
      exact speaks_commit ..
    · rcases List.mem_cons.mp he with rfl | he
      · exact speaks_recording ..
      · exact h₂.speaks e he

lemma TwoPhase.speaks {x : Except TxError Unit} (h : TwoPhase c ps es x) :
    ∀ e ∈ es, c.Speaks e.question := by
  cases h with
  | lost h => exact h.speaks
  | marked _ h₁ h₂ => exact List.forall_mem_append.mpr ⟨h₁.speaks, h₂.speaks⟩
  | refused h₁ h₂ => exact List.forall_mem_append.mpr ⟨h₁.speaks, h₂.speaks⟩
  | decided h₁ h₂ h₃ =>
    exact List.forall_mem_append.mpr
      ⟨h₁.speaks, List.forall_mem_append.mpr ⟨h₂.speaks, h₃.speaks⟩⟩

lemma Direct.speaks {x : Except TxError Unit} {status : Status} (h : Direct c ps es x status) :
    ∀ e ∈ es, c.Speaks e.question := by
  have hrest : ∀ {outcome d es}, Notifies outcome es → ∀ time a,
      ∀ e ∈ c.recording d [] time a :: es, c.Speaks e.question :=
    fun h time a => List.forall_mem_cons.mpr ⟨speaks_recording .., h.speaks⟩
  cases h with
  | nobody time a h => exact hrest h time a
  | committed time a _ h => exact List.forall_mem_cons.mpr ⟨speaks_commit .., hrest h time a⟩
  | mixed time a h => exact List.forall_mem_cons.mpr ⟨speaks_commit .., hrest h time a⟩
  | failed time a _ _ h => exact List.forall_mem_cons.mpr ⟨speaks_commit .., hrest h time a⟩

lemma Outcome.speaks {u : Transaction} {steps : List (System × System)} {how : Ending}
    {x : Except TxError Unit} (h : Outcome c u steps how es x) : ∀ e ∈ es, c.Speaks e.question := by
  cases h with
  | rolledBack _ h => exact h.speaks
  | marked _ _ hb h => exact List.forall_mem_append.mpr ⟨hb.speaks, h.speaks⟩
  | direct _ _ _ hb h => exact List.forall_mem_append.mpr ⟨hb.speaks, h.speaks⟩
  | voted _ _ _ hb h _ => exact List.forall_mem_append.mpr ⟨hb.speaks, h.speaks⟩

/-! ### Who is called -/

/-- A participant is to roll back. -/
def undoing (c : Completion) (k : AdapterKey) : Question := .rollback k c.id

@[simp] lemma calls_recording (d : Decision) (pending : List ResourceId) (time : UInt64)
    (a : Except StorageError Unit) (es : List Exchange) :
    calls (c.recording d pending time a :: es) = calls es :=
  calls_cons ..

lemma Notifies.calls {outcome : Status} (h : Notifies outcome es) : calls es = [] := by
  apply calls_of_apart
  intro e he
  obtain ⟨x, hx⟩ := h.question e he
  rw [hx]
  rfl

lemma Readies.calls (h : Readies es) : calls es = [] := by
  apply calls_of_apart
  intro e he
  obtain ⟨x, hx⟩ := h e he
  rw [hx]
  rfl

/-- Those who are told are called in their order. -/
lemma Tells.calls {tell : Participant → Except ResourceError Unit → Exchange} {own : ResourceError}
    {q : AdapterKey → Question} (h : Tells tell own targets es fs)
    (hq : ∀ p a, (tell p a).question = q p.adapter) (hcall : ∀ k, (q k).isCall = true) :
    calls es = targets.map (q ·.adapter) := by
  induction h with
  | nil => rfl
  | confirmed _ _ ih => rw [calls_cons, hq, if_pos (hcall _), ih, List.map_cons]
  | failed _ _ ih => rw [calls_cons, hq, if_pos (hcall _), ih, List.map_cons]

lemma RollsBack.calls (h : RollsBack c targets es fs) :
    calls es = targets.map (c.undoing ·.adapter) := by
  obtain ⟨es₁, time, a, es₂, h₁, h₂, rfl⟩ := h
  rw [calls_append, calls_recording, h₂.calls, List.append_nil]
  exact h₁.calls (fun _ _ => rfl) fun _ => rfl

end Completion

/-! ### What has taken a transaction comes to an outcome -/

/-- Bystanders begin no vote. -/
lemma Transaction.Undisturbed.status_ne_preparing {t t' : Transaction} (h : t.Undisturbed t')
    (ha : t.status = .active) : t'.status ≠ .preparing := by
  intro hp
  cases hc : t.completing with
  | false =>
    rcases (h.opens ⟨hc, .inl ha⟩).2 with hs | hs <;> rw [hp] at hs <;> cases hs
  | true =>
    rcases (h.keeps (.inl hc)).status with hs | ⟨-, hs⟩
    · rw [hp, ha] at hs
      cases hs
    · rw [hp] at hs
      cases hs

lemma Admits.system_eq {c : Completion} {t : Transaction} {how : Ending}
    {y : Proc (Except TxError Unit)} (h : Admits c t how y) (s : System) : (y s).system = s := by
  cases h with
  | commit _ =>
    cases t.beforeOrder <;> rfl
  | marked _ => rfl
  | rollback => rfl

namespace Request

variable {x : Request} {s t : System} {m : ManagerRef} {r : TxRef} {how : Ending}
  {result : Except TxError Unit}

/-- A request and what has become of it later. -/
structure Continued (x y : Request) : Prop where
  how : y.how = x.how
  tx : y.tx = x.tx
  exchanges : x.exchanges <+: y.exchanges
  accepted : x.Accepted → y.Accepted

@[refl] lemma Continued.refl (x : Request) : x.Continued x := ⟨rfl, rfl, List.prefix_refl _, id⟩

lemma Continued.trans {x y z : Request} (h : x.Continued y) (h' : y.Continued z) :
    x.Continued z where
  how := h'.how.trans h.how
  tx := h'.tx.trans h.tx
  exchanges := h.exchanges.trans h'.exchanges
  accepted := h'.accepted ∘ h.accepted

lemma continued_resume (x : Request) (q : Question) (a : q.Answer) (s : System)
    (d : Dialogue (Except TxError Unit)) : x.Continued (x.resume q a s d) :=
  ⟨rfl, rfl, List.prefix_append .., fun h => h.resume ..⟩

/-- It is the request that took the transaction, and the transaction was marked. -/
def AcceptedMarked (request : Request) : Prop :=
  ∃ p ∈ request.steps, (p.1.tx request.tx).Open ∧ (p.1.tx request.tx).status = .markedRollback ∧
    (p.2.tx request.tx).Taken

instance (request : Request) : Decidable request.AcceptedMarked :=
  inferInstanceAs (Decidable (∃ p ∈ request.steps, _))

lemma not_polled_of_harmless {steps : List (System × System)}
    (h : ∀ p ∈ steps, Harmless m r how p.1 p.2) : ¬Polled r steps := by
  rintro ⟨p, hp, ha, hs⟩
  exact ((h p hp).undisturbed (by simp [ha])).status_ne_preparing ha hs

/-- Neither the steps before a transaction is taken nor the one that takes it begin a vote. -/
lemma polled_iff_of_taken {before ps : List (System × System)} {u : System}
    (hb : ∀ p ∈ before, Harmless m r how p.1 p.2) (hs : (u.tx r).status = (s.tx r).status) :
    Polled r (before ++ (u, s) :: ps) ↔ Polled r ps := by
  rw [Completion.polled_append, Completion.polled_cons]
  refine ⟨?_, fun hp => .inr (.inr hp)⟩
  rintro (hp | ⟨ha, hpreparing⟩ | hp)
  · exact absurd hp (not_polled_of_harmless hb)
  · dsimp only at ha hpreparing
    rw [← hs, ha] at hpreparing
    cases hpreparing
  · exact hp

/-- A completion that has come to its end has come to an outcome. If it was admitted to a marked
transaction there was no vote. -/
lemma Follows.outcome {c : Completion} (h : x.Follows c s) (hp : x.progress = .done t result) :
    Outcome c (t.tx c.tx) x.steps x.how x.exchanges result ∧
      (x.how = .commit → x.AcceptedMarked → ¬Polled c.tx x.steps) := by
  obtain ⟨y, before, u, steps, hy, htakes, hb, hsteps, hr⟩ := h.runs
  rw [hp] at hr
  have htx : x.tx = c.tx := h.tx.symm
  rw [htx] at hb
  have hcont := hy.proceeds.continues s h.size htakes.early
  have hopen : (u.tx c.tx).status = (s.tx c.tx).status := by rw [htakes.eq]
  have hpolled : Polled c.tx x.steps ↔ Polled c.tx steps := by
    rw [hsteps, hy.system_eq]
    exact polled_iff_of_taken hb hopen
  refine ⟨(hy.outcome h.size htakes.early hr).congr hpolled, ?_⟩
  -- before the taking all is open, after it nothing is: the marked look is the taking itself
  rintro hc ⟨p, hmem, ho, hm, ht⟩
  rw [htx] at ho hm ht
  have hmarked : (s.tx c.tx).status = .markedRollback := by
    rw [hsteps] at hmem
    rcases List.mem_append.mp hmem with hmem | hmem
    · exact absurd ht ((hb p hmem).opens ho).not_taken
    · rcases List.mem_cons.mp hmem with rfl | hmem
      · exact hopen.symm.trans hm
      · have htaken := (Completion.stage_le_of_runs hcont (by rw [hy.system_eq]; exact h.size)
          (by rw [hy.system_eq]; exact .inl htakes.early.completing) hr p hmem).2
        exact absurd htaken ho.not_taken
  rw [hpolled]
  rw [hc] at hy
  cases hy with
  | commit ha =>
    rw [hmarked] at ha
    cases ha
  | marked _ => exact (Completion.runs_rollBackMarked h.size htakes.early hmarked hr).1

end Request

namespace Machine

variable {M M' : Machine} {x : Request} {t : System} {result : Except TxError Unit}

/-- What has taken a transaction and has come to its end has come to an outcome. -/
lemma Reachable.outcome (hM : M.Reachable) (hx : x ∈ M.requests) (ha : x.Accepted)
    (hp : x.progress = .done t result) :
    ∃ c : Completion, c.tx = x.tx ∧ c.id = (M.system.tx x.tx).id ∧
      Outcome c (M.system.tx x.tx) x.steps x.how x.exchanges result ∧
      (x.how = .commit → x.AcceptedMarked → ¬Polled x.tx x.steps) := by
  obtain ⟨owner, hsound⟩ := hM.sound
  obtain ⟨i, hi⟩ := List.getElem?_of_mem hx
  obtain ⟨hin, -⟩ := hsound.inside i x hi (hsound.owner_of_accepted hi ha)
  obtain ⟨c, s, hf, hid⟩ := hin.course
  obtain ⟨houtcome, hmarked⟩ := hf.outcome hp
  have hspares := hin.spares
  have hsize := hin.size
  rw [hp] at hspares hsize
  rw [hf.tx] at houtcome hmarked
  exact ⟨c, hf.tx, hid, houtcome.keeps (hspares.undisturbed hsize), hmarked⟩

/-- What has taken a transaction has said the beginning of what a completion says that comes to an
outcome, and all others have said nothing. -/
lemma Reachable.extend (hM : M.Reachable) (hx : x ∈ M.requests) {es : List Exchange}
    (hes : x.Transcript es) :
    es = [] ∨ ∃ c es' steps u a, c.tx = x.tx ∧ c.id = (M.system.tx x.tx).id ∧
      Outcome c u steps x.how (es ++ es') a ∧ u.participants = (M.system.tx x.tx).participants ∧
      ∀ why, (M.system.tx x.tx).rollbackReason = some why → u.rollbackReason = some why := by
  obtain ⟨owner, hsound⟩ := hM.sound
  obtain ⟨i, hi⟩ := List.getElem?_of_mem hx
  by_cases ho : owner x.tx = some i
  · exact .inr ((hsound.inside i x hi ho).1.extend hes)
  · exact .inl ((hsound.outside i x hi ho).transcript hes)

/-! ### Own steps are steps of the program -/

lemma Step.own (h : Step M M') (hx : x ∈ M'.requests) {p : System × System} (hp : p ∈ x.steps) :
    (∃ y ∈ M.requests, y.tx = x.tx ∧ p ∈ y.steps) ∨ p = (M.system, M'.system) := by
  have hstart : ∀ {how m r s} {d : Dialogue (Except TxError Unit)},
      x ∈ M.requests ++ [.start how m r s d] →
      (∃ y ∈ M.requests, y.tx = x.tx ∧ p ∈ y.steps) ∨ p = (s, d.system) := by
    intro how m r s d hx
    rcases List.mem_append.mp hx with hx | hx
    · exact .inl ⟨x, hx, rfl, hp⟩
    · obtain rfl := List.mem_singleton.mp hx
      exact .inr (List.mem_singleton.mp hp)
  cases h with
  | request how m hr => exact hstart hx
  | requestWithin how hc hr hs => exact hstart hx
  | @answer i y s q next hi hy a =>
    -- only the request that is answered takes a step, and it notes this one
    rcases List.mem_or_eq_of_mem_set hx with hx | rfl
    · exact .inl ⟨x, hx, rfl, hp⟩
    · rcases List.mem_append.mp hp with hp | hp
      · exact .inl ⟨y, List.mem_of_getElem? hi, rfl, hp⟩
      · exact .inr (List.mem_singleton.mp hp)
  | _ => exact .inl ⟨x, hx, rfl, hp⟩

lemma Steps.own (h : M.Steps M') (hx : x ∈ M'.requests) {p : System × System} (hp : p ∈ x.steps) :
    (∃ y ∈ M.requests, y.tx = x.tx ∧ p ∈ y.steps) ∨
      ∃ N N', M.Steps N ∧ Step N N' ∧ N'.Steps M' ∧ p = (N.system, N'.system) := by
  induction h generalizing x with
  | refl => exact .inl ⟨x, hx, rfl, hp⟩
  | @tail N N' hs hstep ih =>
    rcases hstep.own hx hp with ⟨y, hy, hyx, hpy⟩ | rfl
    · rcases ih hy hpy with ⟨z, hz, hzy, hpz⟩ | ⟨L, L', hL, hstep', hL', rfl⟩
      · exact .inl ⟨z, hz, hzy.trans hyx, hpz⟩
      · exact .inr ⟨L, L', hL, hstep', hL'.tail hstep, rfl⟩
    · exact .inr ⟨N, N', hs, hstep, .refl, rfl⟩

end Machine

/-! ### A request that is answered comes to its end -/

/-- What a dialogue has come to, if it is at its end. -/
def Dialogue.result? {α : Type} : Dialogue α → Option α
  | done _ a => some a
  | ask .. => none

lemma Dialogue.exists_of_result? {α : Type} {d : Dialogue α} {a : α} (h : d.result? = some a) :
    ∃ s, d = .done s a := by
  cases d with
  | done s b =>
    cases h
    exact ⟨s, rfl⟩
  | ask s q next => cases h

namespace Machine

variable {M : Machine} {x : Request}

lemma answer_of_ask (reply : (q : Question) → q.Answer) {i : Nat} (hi : M.requests[i]? = some x)
    {s : System} {q : Question} {next : System → q.Answer → Dialogue (Except TxError Unit)}
    (hp : x.progress = .ask s q next) :
    (M.answer reply i).requests[i]? =
      some (x.resume q (reply q) M.system (next M.system (reply q))) := by
  have hlt : i < M.requests.length := (List.getElem?_eq_some_iff.mp hi).1
  simp only [answer, hi, hp]
  exact List.getElem?_set_self hlt

/-- It is the same request then, and has said more. -/
lemma exists_answers_done (reply : (q : Question) → q.Answer) {i : Nat}
    (hi : M.requests[i]? = some x) :
    ∃ n y t result, ((answer reply i)^[n] M).requests[i]? = some y ∧
      y.progress = .done t result ∧ x.Continued y := by
  obtain ⟨d, hd⟩ : ∃ d, x.progress = d := ⟨_, rfl⟩
  induction d generalizing M x with
  | done s a => exact ⟨0, x, s, a, hi, hd, .refl x⟩
  | ask s q next ih =>
    have hnext := answer_of_ask reply hi hd
    obtain ⟨n, y, t, result, hy, hdone, hc⟩ := ih _ _ hnext rfl
    exact ⟨n + 1, y, t, result, hy, hdone, (Request.continued_resume ..).trans hc⟩

/-- What it has said until now, whatever it is answered next, is the beginning of what it has said
at its end in some program. -/
lemma exists_done_of_transcript {i : Nat} (hi : M.requests[i]? = some x) {es : List Exchange}
    (hes : x.Transcript es) :
    ∃ M' y t result, M.Steps M' ∧ M'.requests[i]? = some y ∧ y.progress = .done t result ∧
      x.Continued y ∧ es <+: y.exchanges := by
  rcases hes with rfl | ⟨s, q, next, a, hp, rfl⟩
  · obtain ⟨n, y, t, result, hy, hdone, hc⟩ := exists_answers_done Dialogue.someAnswer hi
    exact ⟨_, y, t, result, steps_answers .., hy, hdone, hc, hc.exchanges⟩
  · have hlt : i < M.requests.length := (List.getElem?_eq_some_iff.mp hi).1
    have hnext : (M.requests.set i (x.resume q a M.system (next M.system a)))[i]? =
        some (x.resume q a M.system (next M.system a)) :=
      List.getElem?_set_self hlt
    obtain ⟨n, y, t, result, hy, hdone, hc⟩ :=
      exists_answers_done (M := { M with
        system := (next M.system a).system
        requests := M.requests.set i (x.resume q a M.system (next M.system a)) })
        Dialogue.someAnswer hnext
    exact ⟨_, y, t, result, .head (.answer hi hp a) (steps_answers ..), hy, hdone,
      (Request.continued_resume ..).trans hc, hc.exchanges⟩

end Machine

end TwoPhaseCommit
