import TwoPhaseCommit.Proofs.Bracket
import TwoPhaseCommit.Proofs.InFlight
import TwoPhaseCommit.Proofs.Marks
import TwoPhaseCommit.Proofs.Registration

/-!
# Two rounds of callbacks

The completion of a transaction works between two rounds of callbacks. In the first round those that
were registered are asked to get ready, and in the second they are told the outcome, each as many
times as it was registered. Whatever the callbacks do when they are called, register more of them or
request completions, belongs to the program, so that it is all covered.
-/

namespace TwoPhaseCommit

open Completion (Polled)

/-- What was said lies between two rounds of callbacks: in the first, those of `xs` are asked to get
ready, and in the second, those of `ys` are told the outcome. -/
structure Bracketed (xs ys : List Synchronization) (outcome : Status)
    (pre mid post : List Exchange) : Prop where
  order : pre.map (·.question) <+: xs.map .beforeCompletion
  /-- None is asked after one that has failed. -/
  stops : ∀ e ∈ pre.dropLast, e.balks = false
  /-- The work does not begin before all were asked or one has failed. -/
  through : mid ++ post ≠ [] → pre.length = xs.length ∨ ∃ e ∈ pre, e.balks = true
  work : ∀ e ∈ mid, e.question.isCallback = false
  told : post.map (·.question) <+: ys.map (.afterCompletion · outcome)

section

variable {xs ys : List Synchronization} {φ : Phase} {es pre mid post : List Exchange}
  {outcome : Status}

/-- Only in the first round can a callback have failed. -/
lemma Bracketed.exists_of_balks (h : Bracketed xs ys outcome pre mid post) {e : Exchange}
    (he : e ∈ pre ++ (mid ++ post)) (hb : e.balks = true) :
    ∃ x ∈ xs, e.question = .beforeCompletion x := by
  obtain ⟨z, hz⟩ : ∃ z, e.question = .beforeCompletion z := by
    by_contra hn
    push Not at hn
    rw [Exchange.not_balks_of_ne hn] at hb
    cases hb
  rcases List.mem_append.mp he with he | he
  · obtain ⟨x, hx, hq⟩ := List.mem_map.mp (h.order.subset (List.mem_map_of_mem he))
    exact ⟨x, hx, hq.symm⟩
  · rcases List.mem_append.mp he with he | he
    · have hcallback := h.work e he
      rw [hz] at hcallback
      cases hcallback
    · obtain ⟨x, -, hq⟩ := List.mem_map.mp (h.told.subset (List.mem_map_of_mem he))
      rw [hz] at hq
      cases hq

namespace Phase

/-- The first round goes on. -/
lemma bracketed_asking (ho : pre.map (·.question) <+: xs.map .beforeCompletion)
    (hs : ∀ e ∈ pre.dropLast, e.balks = false) : Bracketed xs ys outcome pre [] [] :=
  ⟨ho, hs, fun h => absurd rfl h, List.forall_mem_nil _, List.nil_prefix⟩

/-- The first round is over. -/
lemma bracketed_asked (h : Asked xs pre) (hm : ∀ e ∈ mid, e.question.isCallback = false)
    (ht : post.map (·.question) <+: ys.map (.afterCompletion · outcome)) :
    Bracketed xs ys outcome pre mid post :=
  ⟨h.order, h.stops, fun _ => h.through, hm, ht⟩

/-- In every phase, if nobody was told another outcome. -/
lemma Reached.bracketed (h : Reached xs ys φ es)
    (ho : ∀ e ∈ es, ∀ x o, e.question = .afterCompletion x o → o = outcome) :
    ∃ pre mid post, es = pre ++ (mid ++ post) ∧ Bracketed xs ys outcome pre mid post := by
  cases h with
  | @asking z zs pre hq hs =>
    refine ⟨es, [], [], by simp, bracketed_asking ⟨_, hq⟩ fun e he => ?_⟩
    exact hs e (List.dropLast_subset _ he)
  | @balked pre e hq hs he =>
    refine ⟨pre ++ [e], [], [], by simp, bracketed_asking hq fun e he => ?_⟩
    rw [List.dropLast_concat] at he
    exact hs e he
  | @working pre mid h hm =>
    exact ⟨pre, mid, [], by simp, bracketed_asked h hm List.nil_prefix⟩
  | @finished _ pre mid h hm =>
    exact ⟨pre, mid, [], by simp, bracketed_asked h hm List.nil_prefix⟩
  | @telling outcome' zs pre mid post h hm ht =>
    refine ⟨pre, mid, post, rfl, bracketed_asked h hm ?_⟩
    cases post with
    | nil => exact List.nil_prefix
    | cons e post =>
      have hquestion : e.question ∈ ys.map (Question.afterCompletion · outcome') :=
        ht ▸ List.mem_cons_self ..
      obtain ⟨x, -, hx⟩ := List.mem_map.mp hquestion
      rw [← ho e (by simp) x outcome' hx.symm]
      exact ⟨_, ht⟩

/-- In the end both rounds are complete. -/
lemma Reached.complete (h : Reached xs ys (.after outcome []) es) :
    ∃ pre mid post, es = pre ++ (mid ++ post) ∧ Bracketed xs ys outcome pre mid post ∧
      Asked xs pre ∧ post.map (·.question) = ys.map (.afterCompletion · outcome) := by
  cases h with
  | @telling _ _ pre mid post h hm ht =>
    rw [List.map_nil, List.append_nil] at ht
    exact ⟨pre, mid, post, rfl, bracketed_asked h hm (ht ▸ List.prefix_refl _), h, ht⟩

end Phase

end

/-! ### A request among others -/

namespace Request

variable {x : Request} {c : Completion} {u s : System} {ps : List (System × System)} {φ : Phase}
  {es : List Exchange}

/-- The callbacks that a request is to ask: all that were registered, for a commit of a transaction
that was not marked. -/
def asked (x : Request) (regular interposed : List Synchronization) : List Synchronization :=
  if x.how = .commit ∧ x.AcceptedActive then regular ++ interposed else []

lemma Attends.asked_eq (h : x.Attends c u ps φ s) (hc : c.tx = x.tx) :
    x.asked ((u.tx c.tx).callbacks false) ((u.tx c.tx).callbacks true) =
      (u.tx c.tx).asks x.how := by
  simp only [asked, Transaction.asks, h.admitted.active_iff hc]
  rfl

/-- With the open question answered too, there is a phase for what was said. -/
lemma Attends.exists_reached (h : x.Attends c u ps φ s) (hes : x.Transcript es) :
    ∃ φ, Phase.Reached ((u.tx c.tx).asks x.how) (u.tx c.tx).afterOrder φ es := by
  rcases hes with rfl | ⟨s₀, q, next, a, hp, rfl⟩
  · exact ⟨φ, h.reached⟩
  · have ht := h.tracks
    rw [hp] at ht
    obtain ⟨φ', hheeds, -⟩ := ht s a trivial
    exact ⟨φ', h.reached.step hheeds (by rintro rfl; exact h.stands.afterOrder)⟩

/-- Whoever is told an outcome is told it in that phase. -/
lemma Attends.after_of_told (h : x.Attends c u ps φ s) (hes : x.Transcript es) {e : Exchange}
    (he : e ∈ es) {z : Synchronization} {outcome : Status}
    (hq : e.question = .afterCompletion z outcome) : ∃ zs, φ = .after outcome zs := by
  rcases hes with rfl | ⟨s₀, q, next, a, hp, rfl⟩
  · exact h.reached.after_of_told he hq
  · rcases List.mem_append.mp he with he | he
    · exact h.reached.after_of_told he hq
    · have ht := h.tracks
      rw [hp] at ht
      obtain ⟨φ', hheeds, -⟩ := ht s a trivial
      rw [Exchange.note] at he
      split at he
      next => cases he
      next =>
        rw [List.mem_singleton.mp he] at hq
        dsimp only at hq
        subst hq
        exact Phase.after_of_heeds hheeds

/-- There was no vote if there was none since it was admitted. -/
lemma Admitted.not_polled (h : x.Admitted c u ps) (hc : c.tx = x.tx) (hp : ¬Polled c.tx ps) :
    ¬Polled c.tx x.steps := by
  obtain ⟨before, s, hsteps, hb, hs⟩ := h.steps
  rw [← hc] at hb
  rw [hsteps, polled_iff_of_taken hb (by rw [hs])]
  exact hp

end Request

namespace Machine

variable {M : Machine} {x : Request} {i : Nat}

lemma Reachable.attends (hM : M.Reachable) (hx : x ∈ M.requests) (ha : x.Accepted) :
    ∃ c u ps φ, c.tx = x.tx ∧ c.manager = x.manager ∧ x.Attends c u ps φ M.system := by
  obtain ⟨owner, hsound⟩ := hM.sound
  obtain ⟨i, hi⟩ := List.getElem?_of_mem hx
  obtain ⟨hin, -⟩ := hsound.inside i x hi (hsound.owner_of_accepted hi ha)
  obtain ⟨c, s, hf, -⟩ := hin.course
  obtain ⟨u, ps, φ, hattends⟩ := hf.attends
  exact ⟨c, u, ps, φ, hf.tx, hf.manager, hattends.spared (hf.tx ▸ hin.spares)⟩

/-- The transaction of a request is not in flight at the manager of the request. If it was, it is in
flight nowhere. -/
structure Struck (M : Machine) (x : Request) : Prop where
  here : x.tx ∉ (M.system.manager x.manager).registered
  anywhere : (∃ p ∈ x.steps, x.tx ∈ (p.1.manager x.manager).registered) →
    ∀ m, x.tx ∉ (M.system.manager m).registered

/-- A request that has struck its transaction in one of its steps. -/
lemma Reachable.struck (hM : M.Reachable) (hx : x ∈ M.requests) {c : Completion}
    (hc : c.tx = x.tx) (hm : c.manager = x.manager) {outcome : Status}
    (h : ∃ p ∈ x.steps, (p.1.tx c.tx).Taken ∧ p.2 = c.unregister outcome p.1) : M.Struck x := by
  obtain ⟨clock, seed, hs⟩ := hM
  have hstep : ∀ p ∈ x.steps, ∃ N N', N.Reachable ∧ Step N N' ∧ N'.Steps M ∧
      p = (N.system, N'.system) := by
    intro p hp
    rcases hs.own hx hp with ⟨y, hy, -⟩ | ⟨N, N', hN, hstep, hN', rfl⟩
    · cases hy
    · exact ⟨N, N', ⟨clock, seed, hN⟩, hstep, hN', rfl⟩
  -- what was struck once does not come back to the list
  have hhere : x.tx ∉ (M.system.manager x.manager).registered := by
    obtain ⟨p, hp, htaken, hstruck⟩ := h
    obtain ⟨N, N', hN, hstep, hN', rfl⟩ := hstep p hp
    rw [← hc, ← hm]
    intro hmem
    have hlt := System.lt_size_of_taken (hN.taken (.single hstep) htaken)
    have hmem' := (hN.steps (.single hstep)).mem_registered hN' hlt hmem
    dsimp only at hstruck
    rw [hstruck] at hmem'
    exact hN.listed.not_mem_unregister c outcome hmem'
  refine ⟨hhere, ?_⟩
  rintro ⟨p, hp, hmem⟩
  obtain ⟨N, N', hN, hstep, hN', rfl⟩ := hstep p hp
  exact hN.not_in_flight (.head hstep hN') hmem hhere

/-- What the callbacks of a transaction can rely on when a request has taken it. -/
structure Attended (M : Machine) (x : Request) (regular interposed : List Synchronization) :
    Prop where
  bracketed : ∀ es, x.Transcript es → ∃ pre mid post, es = pre ++ (mid ++ post) ∧
    Bracketed (x.asked regular interposed) (interposed ++ regular) (M.system.tx x.tx).status
      pre mid post
  /-- They are told when the transaction has ended and is struck from the list. -/
  struck : ∀ es, x.Transcript es → ∀ e ∈ es, ∀ z outcome,
    e.question = .afterCompletion z outcome → (M.system.tx x.tx).Ended ∧ M.Struck x
  /-- When the request has come to its end, all of them were. -/
  complete : ∀ t result, x.progress = .done t result →
    ∃ pre mid post, x.exchanges = pre ++ (mid ++ post) ∧
      Bracketed (x.asked regular interposed) (interposed ++ regular) (M.system.tx x.tx).status
        pre mid post ∧
      Asked (x.asked regular interposed) pre ∧
      post.map (·.question) =
        (interposed ++ regular).map (.afterCompletion · (M.system.tx x.tx).status)
  /-- If one of them has failed the transaction was rolled back, without a vote. -/
  balked : ∀ t result, x.progress = .done t result → (∃ e ∈ x.exchanges, e.balks = true) →
    (M.system.tx x.tx).status = .rolledBack ∧
    calls x.exchanges =
      (M.system.tx x.tx).participants.map (.rollback ·.adapter (M.system.tx x.tx).id) ∧
    ∃ why, result = .error (.rollback (M.system.tx x.tx).id why none)

lemma Reachable.attended (hM : M.Reachable) (hx : x ∈ M.requests) {c : Completion} {u : System}
    {ps : List (System × System)} {φ : Phase} (hc : c.tx = x.tx) (hm : c.manager = x.manager)
    (h : x.Attends c u ps φ M.system) (ha : x.Accepted) :
    M.Attended x ((u.tx x.tx).callbacks false) ((u.tx x.tx).callbacks true) := by
  have hasked := h.asked_eq hc
  rw [← hc]
  have hstands : ∀ {outcome zs}, φ = .after outcome zs →
      (M.system.tx c.tx).status = outcome ∧ (M.system.tx c.tx).Ended ∧
        c.Dooms x.exchanges ps M.system ∧ ∃ p ∈ ps, p.2 = c.unregister outcome p.1 := by
    rintro outcome zs rfl
    cases h.stands with
    | after hs he hd hstruck => exact ⟨hs, he, hd, hstruck⟩
  have hend : ∀ {t result}, x.progress = .done t result → φ.Through := fun hp => by
    have ht := h.tracks
    rw [hp] at ht
    exact ht
  refine ⟨fun es hes => ?_, fun es hes e he z outcome hq => ?_, fun t result hp => ?_,
    fun t result hp hbalks => ?_⟩
  · obtain ⟨φ', hreached⟩ := h.exists_reached hes
    rw [hasked, ← hc]
    refine hreached.bracketed fun e he z outcome hq => ?_
    obtain ⟨zs, hφ⟩ := h.after_of_told hes he hq
    exact (hstands hφ).1.symm
  · obtain ⟨zs, hφ⟩ := h.after_of_told hes he hq
    obtain ⟨-, hended, -, p, hp, hstruck⟩ := hstands hφ
    obtain ⟨before, s, hsteps, -⟩ := h.admitted.steps
    have hmem : p ∈ x.steps := by
      rw [hsteps]
      exact List.mem_append_right _ (List.mem_cons_of_mem _ hp)
    exact ⟨hc ▸ hended, hM.struck hx hc hm ⟨p, hmem, h.admitted.taken p hp, hstruck⟩⟩
  · obtain ⟨outcome, rfl⟩ := hend hp
    obtain ⟨rfl, -⟩ := hstands rfl
    rw [hasked, ← hc]
    exact h.reached.complete
  · obtain ⟨outcome, rfl⟩ := hend hp
    obtain ⟨rfl, -, hdooms, -⟩ := hstands rfl
    obtain ⟨hreason, hnot⟩ := hdooms hbalks
    obtain ⟨why, hwhy⟩ := Option.ne_none_iff_exists'.mp hreason
    have hpolled := h.admitted.not_polled hc hnot
    obtain ⟨d, hd, hid, houtcome, -⟩ := hM.outcome hx ha hp
    rw [hc] at hwhy hpolled
    rw [← hd] at hpolled
    obtain ⟨hcalls, hresult⟩ := houtcome.calls_of_not_polled hwhy hpolled
    obtain ⟨e, he, hb⟩ := hbalks
    obtain ⟨pre, mid, post, hes, hbracketed, -⟩ := h.reached.complete
    obtain ⟨z, hz, -⟩ := hbracketed.exists_of_balks (hes ▸ he) hb
    -- a rollback asks no callback that could fail
    have hcommit : x.how = .commit := by
      by_contra hn
      rw [Transaction.asks, if_neg fun h => hn h.1] at hz
      cases hz
    rw [← hid]
    exact ⟨(houtcome.rolls_back hwhy).1, hcalls, why, hresult hcommit⟩

/-! ### In the course of a program -/

/-- An own step of a request is one of the acts, unless it was made before them. -/
lemma exists_own_act {as : List Act} (hx : x ∈ (M.run as).requests) {p : System × System}
    (hp : p ∈ x.steps) :
    (∃ y ∈ M.requests, y.tx = x.tx ∧ p ∈ y.steps) ∨
      ∃ bs a cs, as = bs ++ a :: cs ∧ p = ((M.run bs).system, ((M.run bs).perform a).system) := by
  induction as generalizing M with
  | nil => exact .inl ⟨x, hx, rfl, hp⟩
  | cons a as ih =>
    rcases ih hx with ⟨y, hy, hyx, hpy⟩ | ⟨bs, a', cs, rfl, rfl⟩
    · rcases M.perform_cases a with hsame | hstep
      · rw [hsame] at hy
        exact .inl ⟨y, hy, hyx, hpy⟩
      · rcases hstep.own hy hpy with ⟨z, hz, hzy, hpz⟩ | rfl
        · exact .inl ⟨z, hz, hzy.trans hyx, hpz⟩
        · exact .inr ⟨[], a, as, rfl, rfl⟩
    · exact .inr ⟨a :: bs, a', cs, rfl, rfl⟩

/-- The callbacks of a transaction that was taken are those that were registered. -/
lemma attended_run (clock seed : Nat) (as : List Act)
    (hx : x ∈ ((initial clock seed).run as).requests) (ha : x.Accepted) :
    ((initial clock seed).run as).Attended x
      ((initial clock seed).registrations x.tx false as)
      ((initial clock seed).registrations x.tx true as) := by
  have hinit := reachable_initial clock seed
  have hM := hinit.run as
  obtain ⟨c, u, ps, φ, hc, hm, h⟩ := hM.attends hx ha
  obtain ⟨before, s, hsteps, -, hs⟩ := h.admitted.steps
  rcases exists_own_act hx (p := (u, s)) (by simp [hsteps]) with ⟨y, hy, -⟩ | ⟨bs, a, cs, rfl, hp⟩
  · cases hy
  · obtain ⟨rfl, rfl⟩ := Prod.mk.inj hp
    have hopen := h.admitted.opens
    have htaken : ((((initial clock seed).run bs).perform a).system.tx c.tx).Taken := by
      rw [hs]
      exact .inl rfl
    rw [hc] at hopen htaken
    -- what is registered is on the list when the transaction is taken, and nothing comes later
    have hcallbacks : ∀ b, (initial clock seed).registrations x.tx b (bs ++ a :: cs) =
        (((initial clock seed).run bs).system.tx x.tx).callbacks b := by
      intro b
      have hnone : ((initial clock seed).system.tx x.tx).callbacks b = [] := by cases b <;> rfl
      rw [registrations_append, registrations, registers_of_takes hopen htaken,
        ((hinit.run bs).perform a).registrations_of_taken htaken,
        hinit.callbacks_run bs hopen.not_taken, hnone]
      simp
    rw [hcallbacks, hcallbacks]
    exact hM.attended hx hc hm h ha

lemma Reachable.taken_of_accepted (hM : M.Reachable) (hx : x ∈ M.requests) (ha : x.Accepted) :
    (M.system.tx x.tx).Taken := by
  obtain ⟨c, u, ps, φ, hc, -, h⟩ := hM.attends hx ha
  exact hc ▸ h.holds.taken

/-- A request that has taken its transaction attends to all callbacks that were registered for it,
in their order, around its work, whatever these and anybody else may do meanwhile. If it is answered
it comes to its end. No further callback can be registered, then or later. -/
theorem callbacks_attended (clock seed : Nat) (as : List Act)
    (hi : ((initial clock seed).run as).requests[i]? = some x) (ha : x.Accepted) :
    let M := (initial clock seed).run as
    let regular := (initial clock seed).registrations x.tx false as
    let interposed := (initial clock seed).registrations x.tx true as
    M.Attended x regular interposed ∧
    (∀ reply, ∃ n y t result, ((answer reply i)^[n] M).requests[i]? = some y ∧
      y.progress = .done t result ∧ x.Continued y ∧
      ((answer reply i)^[n] M).Attended y regular interposed) ∧
    ∀ bs callback b, ∃ why,
      ((M.run bs).system.tx x.tx).register callback b = .error (.illegalState why) := by
  intro M regular interposed
  have hx : x ∈ M.requests := List.mem_of_getElem? hi
  have hM : M.Reachable := (reachable_initial clock seed).run as
  have htaken : (M.system.tx x.tx).Taken := hM.taken_of_accepted hx ha
  refine ⟨attended_run clock seed as hx ha, fun reply => ?_, fun bs callback b => ?_⟩
  · obtain ⟨n, y, t, result, hy, hp, hc⟩ := exists_answers_done reply hi
    refine ⟨n, y, t, result, hy, hp, hc, ?_⟩
    obtain ⟨bs, hbs⟩ := (steps_answers reply i n M).exists_run
    rw [← hbs, ← run_append] at hy ⊢
    have hattended := attended_run clock seed (as ++ bs) (List.mem_of_getElem? hy) (hc.accepted ha)
    rw [hc.tx, registrations_append, registrations_append, hM.registrations_of_taken htaken,
      hM.registrations_of_taken htaken, List.append_nil, List.append_nil] at hattended
    exact hattended
  · exact ⟨_, Transaction.register_of_taken (hM.taken (M.steps_run bs) htaken) callback b⟩

/-- Three callbacks are registered. The first one agrees, and meanwhile another comes too late. The
second one fails. -/
def balking : List Act :=
  [.operate (.addManager {} 0), .operate (.begin 0 none), .operate (.register 0 ⟨0⟩ true),
    .operate (.register 0 ⟨1⟩ false), .operate (.register 0 ⟨2⟩ true),
    .operate (.enlist 0 { ref := 0, id := ⟨"a"⟩ }), .request .commit 0 0, .answer 0 .turned,
    .answer 0 .turned, .answer 0 (.done (.ok ())), .operate (.register 0 ⟨3⟩ false),
    .answer 0 (.done (.error .heuristicMixed))] ++
  (List.replicate 9 [.answer 0 .turned, .answer 0 (.done (.ok ())),
    .answer 0 (.written (.ok ()))]).flatten

theorem callbacks_attended_balking :
    let M := (initial 0 0).run balking
    M.requests.length = 1 ∧ ∀ x, M.requests[0]? = some x →
      x.Accepted ∧ x.progress.result?.isSome ∧ (∃ e ∈ x.exchanges, e.balks = true) ∧
      M.Attended x [⟨1⟩] [⟨0⟩, ⟨2⟩] := by
  have hall : ∀ x ∈ ((initial 0 0).run balking).requests,
      x.Accepted ∧ x.progress.result?.isSome ∧ (∃ e ∈ x.exchanges, e.balks = true) ∧
      (initial 0 0).registrations x.tx false balking = [⟨1⟩] ∧
      (initial 0 0).registrations x.tx true balking = [⟨0⟩, ⟨2⟩] := by decide +kernel
  refine ⟨by decide +kernel, fun x hi => ?_⟩
  obtain ⟨ha, hdone, hbalks, hregular, hinterposed⟩ := hall x (List.mem_of_getElem? hi)
  have hattended := (callbacks_attended 0 0 balking hi ha).1
  rw [hregular, hinterposed] at hattended
  exact ⟨ha, hdone, hbalks, hattended⟩

end Machine

end TwoPhaseCommit
