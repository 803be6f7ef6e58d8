import TwoPhaseCommit.Proofs.Callbacks
import TwoPhaseCommit.Proofs.Requests

/-!
# Callbacks around a completion

What a completion has said falls into three parts: callbacks that were asked to get ready, the work,
and callbacks that were told the outcome. `Phase.Reached` says how these go with the phase that the
completion has come to, and `Completion.Stands` how the transaction stands then. Each step that heeds
the callbacks keeps both, so that they hold of whatever was admitted (`Request.Follows.attends`).
-/

namespace TwoPhaseCommit

open Completion (Early Polled)

/-- A callback that was asked to get ready has failed. -/
def Exchange.balks : Exchange → Bool
  | ⟨.beforeCompletion _, .error _⟩ => true
  | _ => false

lemma Exchange.not_balks_of_ne {e : Exchange} (h : ∀ x, e.question ≠ .beforeCompletion x) :
    e.balks = false := by
  obtain ⟨q, a⟩ := e
  cases q with
  | beforeCompletion x => exact absurd rfl (h x)
  | _ => rfl

/-- What is no such question tells of no failure. -/
lemma exists_balks_of_note {es : List Exchange} {q : Question} {a : q.Answer}
    (hq : ∀ x, q ≠ .beforeCompletion x)
    (h : ∃ e ∈ es ++ Exchange.note q a, e.balks = true) : ∃ e ∈ es, e.balks = true := by
  obtain ⟨e, he, hb⟩ := h
  refine ⟨e, (List.mem_append.mp he).resolve_right fun he => ?_, hb⟩
  rw [Exchange.note] at he
  split at he
  next => cases he
  next =>
    rw [List.mem_singleton.mp he, Exchange.not_balks_of_ne hq] at hb
    cases hb

/-- The callbacks `xs` were asked in this order, all of them or up to one that has failed. -/
structure Asked (xs : List Synchronization) (es : List Exchange) : Prop where
  order : es.map (·.question) <+: xs.map .beforeCompletion
  stops : ∀ e ∈ es.dropLast, e.balks = false
  through : es.length = xs.length ∨ ∃ e ∈ es, e.balks = true

namespace Phase

variable {xs ys : List Synchronization} {φ φ' : Phase} {es : List Exchange} {c : Completion}

/-- What was said on the way to a phase, with `xs` to be asked before the work and `ys` to be told
after it. -/
inductive Reached (xs ys : List Synchronization) : Phase → List Exchange → Prop
  | asking {z : Synchronization} {zs : List Synchronization} {pre : List Exchange}
      (ho : pre.map (·.question) ++ (z :: zs).map .beforeCompletion = xs.map .beforeCompletion)
      (hs : ∀ e ∈ pre, e.balks = false) : Reached xs ys (.before (z :: zs)) pre
  | balked {pre : List Exchange} {e : Exchange}
      (ho : (pre ++ [e]).map (·.question) <+: xs.map .beforeCompletion)
      (hs : ∀ e ∈ pre, e.balks = false) (he : e.balks = true) : Reached xs ys .balked (pre ++ [e])
  | working {pre mid : List Exchange} (h : Asked xs pre)
      (hm : ∀ e ∈ mid, e.question.isCallback = false) : Reached xs ys (.before []) (pre ++ mid)
  | finished (outcome : Status) {pre mid : List Exchange} (h : Asked xs pre)
      (hm : ∀ e ∈ mid, e.question.isCallback = false) :
    Reached xs ys (.finished outcome ys) (pre ++ mid)
  | telling {outcome : Status} {zs : List Synchronization} {pre mid post : List Exchange}
      (h : Asked xs pre) (hm : ∀ e ∈ mid, e.question.isCallback = false)
      (ht : post.map (·.question) ++ zs.map (.afterCompletion · outcome) =
        ys.map (.afterCompletion · outcome)) :
    Reached xs ys (.after outcome zs) (pre ++ (mid ++ post))

/-- At first nothing was said. -/
lemma reached_before (xs ys : List Synchronization) : Reached xs ys (.before xs) [] := by
  cases xs with
  | nil =>
    have h : Asked [] [] := ⟨List.prefix_refl _, by simp, .inl rfl⟩
    exact .working h (List.forall_mem_nil _)
  | cons x xs => exact .asking rfl (by simp)

/-- Nothing but what was asked and is not left over was asked. -/
lemma asked_of_asking {pre : List Exchange}
    (ho : pre.map (·.question) = xs.map .beforeCompletion) (hs : ∀ e ∈ pre, e.balks = false) :
    Asked xs pre where
  order := ho ▸ List.prefix_refl _
  stops e he := hs e (List.dropLast_subset _ he)
  through := .inl (by simpa using congrArg List.length ho)

/-- What is said in a step leads to the next phase. -/
lemma Reached.step {s t : System} {q : Question} {a : q.Answer} (h : Reached xs ys φ es)
    (hh : c.Heeds φ q a s t φ') (hys : φ = .before [] → (s.tx c.tx).afterOrder = ys) :
    Reached xs ys φ' (es ++ Exchange.note q a) := by
  cases hh with
  | @agrees x zs s =>
    cases h with
    | asking ho hs =>
      have hs' : ∀ e ∈ es ++ [(⟨.beforeCompletion x, .ok ()⟩ : Exchange)], e.balks = false := by
        intro e he
        rcases List.mem_append.mp he with he | he
        · exact hs e he
        · rw [List.mem_singleton.mp he]
          rfl
      have ho' : (es ++ [(⟨.beforeCompletion x, .ok ()⟩ : Exchange)]).map (·.question) ++
          zs.map Question.beforeCompletion = xs.map Question.beforeCompletion := by
        rw [List.map_append, List.append_assoc]
        exact ho
      -- the last callback that agrees ends the first round
      cases zs with
      | nil =>
        rw [List.map_nil, List.append_nil] at ho'
        have hasked : Reached xs ys (.before []) (_ ++ []) :=
          .working (asked_of_asking ho' hs') (List.forall_mem_nil _)
        rwa [List.append_nil] at hasked
      | cons z zs => exact .asking ho' hs'
  | @fails x zs e s =>
    cases h with
    | asking ho hs =>
      -- those behind the one that fails are not asked
      refine .balked ?_ hs rfl
      rw [← ho, List.map_append]
      exact ⟨zs.map .beforeCompletion, by simp⟩
  | marks e s =>
    cases h with
    | @balked pre e ho hs he =>
      have hasked : Asked xs (pre ++ [e]) :=
        ⟨ho, by simpa using hs, .inr ⟨e, by simp, he⟩⟩
      exact .working hasked (by simp)
  | works hq a ht =>
    cases h with
    | @working pre mid h hm =>
      rw [List.append_assoc]
      refine .working h fun e he => ?_
      rcases List.mem_append.mp he with he | he
      · exact hm e he
      · rw [Exchange.note] at he
        split at he
        next => cases he
        next =>
          rw [List.mem_singleton.mp he]
          exact hq
  | finishes outcome s =>
    cases h with
    | working h hm =>
      rw [hys rfl, Exchange.note_turn, List.append_nil]
      exact .finished outcome h hm
  | @strikes outcome zs s =>
    cases h with
    | @finished _ pre mid h hm =>
      have htold : Reached xs ys (.after outcome ys) (pre ++ (mid ++ [])) := .telling h hm rfl
      rw [List.append_nil] at htold
      rw [Exchange.note_turn, List.append_nil]
      exact htold
  | @tells outcome x zs a s =>
    cases h with
    | @telling outcome zs pre mid post h hm ht =>
      rw [List.append_assoc, List.append_assoc]
      refine .telling h hm ?_
      rw [← ht, List.map_append, List.append_assoc]
      rfl
  | counts s =>
    rw [Exchange.note_turn, List.append_nil]
    exact h

/-- Nobody is told before the transaction was struck from the list, nor another outcome. -/
lemma Reached.after_of_told (h : Reached xs ys φ es) {e : Exchange} (he : e ∈ es)
    {x : Synchronization} {outcome : Status} (hq : e.question = .afterCompletion x outcome) :
    ∃ zs, φ = .after outcome zs := by
  -- only the last of the three parts tells anybody
  have hbefore : ∀ {pre : List Exchange}, pre.map (·.question) <+: xs.map .beforeCompletion →
      e ∉ pre := by
    intro pre ho hmem
    have hquestion := ho.subset (List.mem_map_of_mem hmem)
    rw [hq] at hquestion
    obtain ⟨z, -, hz⟩ := List.mem_map.mp hquestion
    cases hz
  have hwork : ∀ {mid : List Exchange}, (∀ e ∈ mid, e.question.isCallback = false) → e ∉ mid := by
    intro mid hm hmem
    have hcallback := hm e hmem
    rw [hq] at hcallback
    cases hcallback
  cases h with
  | asking ho _ => exact absurd he (hbefore ⟨_, ho⟩)
  | balked ho _ _ => exact absurd he (hbefore ho)
  | working h hm => exact ((List.mem_append.mp he).elim (hbefore h.order) (hwork hm)).elim
  | finished _ h hm => exact ((List.mem_append.mp he).elim (hbefore h.order) (hwork hm)).elim
  | @telling outcome' zs pre mid post h hm ht =>
    have hpost := (List.mem_append.mp ((List.mem_append.mp he).resolve_left (hbefore h.order)))
      |>.resolve_left (hwork hm)
    have hquestion : e.question ∈ ys.map (Question.afterCompletion · outcome') :=
      ht ▸ List.mem_append_left _ (List.mem_map_of_mem hpost)
    rw [hq] at hquestion
    obtain ⟨z, -, hz⟩ := List.mem_map.mp hquestion
    cases hz
    exact ⟨zs, rfl⟩

/-- A callback is told in that phase only. -/
lemma after_of_heeds {s t : System} {x : Synchronization} {outcome : Status}
    {a : (Question.afterCompletion x outcome).Answer}
    (hh : c.Heeds φ (.afterCompletion x outcome) a s t φ') : ∃ zs, φ = .after outcome zs := by
  cases hh with
  | works hq _ _ => cases hq
  | tells a s => exact ⟨_, rfl⟩

end Phase

/-! ### How the transaction stands -/

namespace Completion

variable {α : Type} {c : Completion} {t₀ : Transaction} {φ φ' : Phase} {es : List Exchange}
  {ps : List (System × System)} {s t : System}

/-- For a callback that has failed the transaction is rolled back without a vote. -/
def Dooms (c : Completion) (es : List Exchange) (ps : List (System × System)) (s : System) : Prop :=
  (∃ e ∈ es, e.balks = true) → (s.tx c.tx).rollbackReason ≠ none ∧ ¬Polled c.tx ps

/-- How the transaction stands in a phase, when it was `t₀` at first. -/
inductive Stands (c : Completion) (t₀ : Transaction) :
    Phase → List Exchange → List (System × System) → System → Prop
  | asking {z : Synchronization} {zs : List Synchronization} {es : List Exchange}
      {ps : List (System × System)} {s : System} (hk : t₀.Retains (s.tx c.tx))
      (he : Early (s.tx c.tx)) (hp : ¬Polled c.tx ps) : Stands c t₀ (.before (z :: zs)) es ps s
  | balked {es : List Exchange} {ps : List (System × System)} {s : System}
      (hk : t₀.Retains (s.tx c.tx)) (he : Early (s.tx c.tx)) (hp : ¬Polled c.tx ps) :
    Stands c t₀ .balked es ps s
  | working {es : List Exchange} {ps : List (System × System)} {s : System}
      (hk : t₀.Retains (s.tx c.tx)) (hd : c.Dooms es ps s) : Stands c t₀ (.before []) es ps s
  | finished {outcome : Status} {zs : List Synchronization} {es : List Exchange}
      {ps : List (System × System)} {s : System} (hs : (s.tx c.tx).status = outcome)
      (he : (s.tx c.tx).Ended) (hd : c.Dooms es ps s) : Stands c t₀ (.finished outcome zs) es ps s
  | after {outcome : Status} {zs : List Synchronization} {es : List Exchange}
      {ps : List (System × System)} {s : System} (hs : (s.tx c.tx).status = outcome)
      (he : (s.tx c.tx).Ended) (hd : c.Dooms es ps s)
      (hstruck : ∃ p ∈ ps, p.2 = c.unregister outcome p.1) : Stands c t₀ (.after outcome zs) es ps s

/-- The transaction is there, and taken. -/
structure Holds (c : Completion) (s : System) : Prop where
  size : c.tx < s.transactions.size
  taken : (s.tx c.tx).Taken
  marks : (s.tx c.tx).WellMarked

lemma Holds.spared (h : c.Holds s) (hs : s.Spares c.tx t) : c.Holds t where
  size := h.size.trans_le hs.size_le
  taken := ((hs.undisturbed h.size).keeps h.taken).taken h.taken
  marks := (hs.undisturbed h.size).grows.onward.marks h.marks

lemma Holds.works (h : c.Holds s) (hw : s.Works c.tx t) : c.Holds t where
  size := hw.size_eq ▸ h.size
  taken := hw.taken
  marks := hw.same.onward.marks h.marks

lemma Dooms.onward (h : c.Dooms es ps s) (ho : (s.tx c.tx).Onward (t.tx c.tx)) :
    c.Dooms es ps t := by
  intro he
  obtain ⟨hreason, hp⟩ := h he
  obtain ⟨why, hwhy⟩ := Option.ne_none_iff_exists'.mp hreason
  rw [ho.reason why hwhy]
  exact ⟨nofun, hp⟩

lemma not_polled_concat (hp : ¬Polled c.tx ps)
    (ht : (s.tx c.tx).status = .active → (t.tx c.tx).status ≠ .preparing) :
    ¬Polled c.tx (ps ++ [(s, t)]) := by
  rw [polled_append, polled_cons]
  rintro (hpolled | ⟨hactive, hpreparing⟩ | ⟨p, hp, -⟩)
  · exact hp hpolled
  · exact ht hactive hpreparing
  · cases hp

/-- A step from a transaction that is to be rolled back begins no vote. -/
lemma Dooms.step (h : c.Dooms es ps s) (hm : (s.tx c.tx).WellMarked)
    (ho : (s.tx c.tx).Onward (t.tx c.tx)) {es' : List Exchange}
    (hes : (∃ e ∈ es', e.balks = true) → ∃ e ∈ es, e.balks = true) :
    c.Dooms es' (ps ++ [(s, t)]) t := by
  intro he
  obtain ⟨hreason, hp⟩ := h (hes he)
  refine ⟨(h.onward ho (hes he)).1, not_polled_concat hp fun hactive => ?_⟩
  have hdoomed := hm.doomed hreason
  rw [hactive] at hdoomed
  rcases hdoomed with h | h | h <;> cases h

/-- What others do leaves it standing so. -/
lemma Stands.spared (h : c.Stands t₀ φ es ps s) (hh : c.Holds s) (hs : s.Spares c.tx t) :
    c.Stands t₀ φ es ps t := by
  have hu := hs.undisturbed hh.size
  have hkeeps := hu.keeps hh.taken
  have hretains : t₀.Retains (s.tx c.tx) → t₀.Retains (t.tx c.tx) := fun hk =>
    hk.trans ⟨hkeeps.regular, hkeeps.interposed⟩
  have hended : ∀ {outcome}, (s.tx c.tx).status = outcome → (s.tx c.tx).Ended →
      (t.tx c.tx).status = outcome ∧ (t.tx c.tx).Ended := by
    rintro outcome rfl he
    have hstatus := hkeeps.ended he
    exact ⟨hstatus, by rwa [Transaction.Ended, hstatus]⟩
  cases h with
  | asking hk he hp => exact .asking (hretains hk) (stable_early.keeps he hu) hp
  | balked hk he hp => exact .balked (hretains hk) (stable_early.keeps he hu) hp
  | working hk hd => exact .working (hretains hk) (hd.onward hu.grows.onward)
  | finished hst he hd =>
    obtain ⟨hst', he'⟩ := hended hst he
    exact .finished hst' he' (hd.onward hu.grows.onward)
  | after hst he hd hstruck =>
    obtain ⟨hst', he'⟩ := hended hst he
    exact .after hst' he' (hd.onward hu.grows.onward) hstruck

lemma Early.status_ne {t : Transaction} (h : Early t) : t.status ≠ .preparing := by
  rcases h.status with hs | hs <;> simp [hs]

/-- The mark for a callback that has failed. -/
lemma Early.marked {t : Transaction} (h : Early t) (why : RollbackReason) :
    ∃ u, t.markRollbackOnly why = .ok u ∧ u.status = .markedRollback ∧ t.Retains u := by
  unfold Transaction.markRollbackOnly
  rcases h.status with hs | hs
  · rw [hs]
    exact ⟨_, rfl, rfl, rfl, rfl⟩
  · rw [hs]
    exact ⟨_, rfl, hs, rfl, rfl⟩

/-- With the mark the transaction is doomed. -/
lemma Stands.marked (h : c.Stands t₀ .balked es ps s) (hh : c.Holds s) {e : ResourceError}
    (ht : t = s.modifyTx c.tx fun t =>
      ((t.markRollbackOnly (.beforeCompletionFailed e)).toOption).getD t) (hw : s.Works c.tx t) :
    c.Stands t₀ (.before []) es (ps ++ [(s, t)]) t := by
  cases h with
  | balked hk he hp =>
    obtain ⟨u, hu, hstatus, hretains⟩ := he.marked (.beforeCompletionFailed e)
    have hmark : t.tx c.tx = u := by
      rw [ht, System.tx_modifyTx_self _ hh.size, hu]
      rfl
    refine .working ?_ fun _ => ⟨?_, not_polled_concat hp fun _ => ?_⟩
    · rw [hmark]
      exact hk.trans hretains
    · exact (hw.same.onward.marks hh.marks).marked (by rw [hmark, hstatus])
    · rw [hmark, hstatus]
      nofun

/-- Its own next step leads to where the next phase has it. -/
lemma Stands.step {xs ys : List Synchronization} {q : Question} {a : q.Answer}
    (h : c.Stands t₀ φ es ps s) (hr : Phase.Reached xs ys φ es) (hh : c.Holds s)
    (hs : c.Heeds φ q a s t φ') (hw : s.Works c.tx t) :
    c.Stands t₀ φ' (es ++ Exchange.note q a) (ps ++ [(s, t)]) t := by
  -- in all other steps no callback fails, and a failure that was heard before is heeded still
  have hdooms : (∀ x, q ≠ .beforeCompletion x) → c.Dooms es ps s →
      c.Dooms (es ++ Exchange.note q a) (ps ++ [(s, t)]) t :=
    fun hq hd => hd.step hh.marks hw.same.onward (exists_balks_of_note hq)
  cases hs with
  | @agrees x zs s =>
    cases h with
    | asking hk he hp =>
      have hp' := not_polled_concat (s := s) hp fun _ => he.status_ne
      cases zs with
      | cons z zs => exact .asking hk he hp'
      | nil =>
        refine .working hk ?_
        rintro ⟨e, hmem, hb⟩
        cases hr with
        | asking _ hs =>
          rcases List.mem_append.mp hmem with hmem | hmem
          · rw [hs e hmem] at hb
            cases hb
          · rw [List.mem_singleton.mp hmem] at hb
            cases hb
  | fails e s =>
    cases h with
    | asking hk he hp => exact .balked hk he (not_polled_concat hp fun _ => he.status_ne)
  | marks e s =>
    rw [Exchange.note_turn, List.append_nil]
    exact h.marked hh rfl hw
  | works hq a ht =>
    cases h with
    | working hk hd =>
      refine .working ?_ (hdooms (fun x hx => by rw [hx] at hq; cases hq) hd)
      cases ht with
      | changes hf =>
        rw [System.tx_modifyTx_self _ hh.size]
        exact hk.trans (hf _)
      | counts => exact hk
  | finishes outcome s =>
    cases h with
    | working hk hd =>
      have htx : (s.modifyTx c.tx (·.finish outcome)).tx c.tx = (s.tx c.tx).finish outcome :=
        System.tx_modifyTx_self _ hh.size
      refine .finished (by rw [htx]; rfl) ?_ (hdooms nofun hd)
      -- a taken transaction that is not being completed has ended
      refine hw.taken.resolve_left fun hc => ?_
      rw [htx] at hc
      cases hc
  | strikes s =>
    cases h with
    | finished hst he hd =>
      exact .after hst he (hdooms nofun hd) ⟨(s, c.unregister _ s), by simp, rfl⟩
  | tells a s =>
    cases h with
    | after hst he hd hstruck =>
      obtain ⟨p, hp, hstruck⟩ := hstruck
      exact .after hst he (hdooms nofun hd) ⟨p, List.mem_append_left _ hp, hstruck⟩
  | counts s =>
    cases h with
    | after hst he hd hstruck =>
      obtain ⟨p, hp, hstruck⟩ := hstruck
      exact .after hst he (hdooms nofun hd) ⟨p, List.mem_append_left _ hp, hstruck⟩

/-- The callbacks that are to be told are those that the transaction had at first. -/
lemma Stands.afterOrder (h : c.Stands t₀ (.before []) es ps s) :
    (s.tx c.tx).afterOrder = t₀.afterOrder := by
  cases h with
  | working hk _ => rw [Transaction.afterOrder, Transaction.afterOrder, hk.regular, hk.interposed]

/-- Wherever a dialogue that heeds the callbacks has come to. -/
lemma exists_phase {xs : List Synchronization} {Q : α → Phase → System → Prop}
    {Q' : α → System → Prop} {d d' : Dialogue α} {es' : List Exchange}
    {ps' : List (System × System)} (hrun : d.Runs (System.Spares c.tx) es' ps' d')
    (ht : d.Tracks (fun _ _ => True) c.Heeds Q φ)
    (hc : d.Continues (System.Spares c.tx) (System.Works c.tx) Q')
    (hr : Phase.Reached xs t₀.afterOrder φ es) (hs : c.Stands t₀ φ es ps d.system)
    (hh : c.Holds d.system) :
    ∃ φ', d'.Tracks (fun _ _ => True) c.Heeds Q φ' ∧
      Phase.Reached xs t₀.afterOrder φ' (es ++ es') ∧
      c.Stands t₀ φ' (es ++ es') (ps ++ ps') d'.system ∧ c.Holds d'.system ∧
      ∀ p ∈ ps', (p.1.tx c.tx).Taken := by
  induction hrun generalizing φ es ps with
  | refl d =>
    rw [List.append_nil, List.append_nil]
    exact ⟨φ, ht, hr, hs, hh, List.forall_mem_nil _⟩
  | @answer s s' q next a es' ps' d hspares _ ih =>
    obtain ⟨φ', hheeds, ht'⟩ := ht s' a trivial
    obtain ⟨hw, hc'⟩ := hc s' a hspares
    have hs' := hs.spared hh hspares
    have hh' := hh.spared hspares
    -- others had their turn meanwhile, but not with the callbacks of a taken transaction
    have hreached := hr.step hheeds (by rintro rfl; exact hs'.afterOrder)
    obtain ⟨ψ, hd', hr', hstands, hholds, htaken⟩ :=
      ih ht' hc' hreached (hs'.step hr hh' hheeds hw) (hh'.works hw)
    rw [List.append_assoc] at hr'
    rw [List.append_assoc, List.append_assoc] at hstands
    exact ⟨ψ, hd', hr', hstands, hholds, List.forall_mem_cons.mpr ⟨hh'.taken, htaken⟩⟩

end Completion

/-! ### From admission on -/

/-- The callbacks that are asked when a transaction is taken. -/
def Transaction.asks (t : Transaction) (how : Ending) : List Synchronization :=
  if how = .commit ∧ t.status = .active then t.beforeOrder else []

lemma Admits.attends {c : Completion} {t : Transaction} {how : Ending}
    {y : Proc (Except TxError Unit)} (h : Admits c t how y) :
    c.Attends (· = .before (t.asks how)) y fun _ => Phase.Through := by
  cases h with
  | commit ha =>
    have hasks : t.asks .commit = t.beforeOrder := if_pos ⟨rfl, ha⟩
    rw [hasks]
    exact Completion.attends_commitActive _
  | marked hm =>
    have hasks : t.asks .commit = [] := if_neg fun h => by
      rw [hm] at h
      cases h.2
    rw [hasks]
    exact Completion.attends_rollBackMarked.map
  | rollback =>
    have hasks : t.asks .rollback = [] := if_neg fun h => Ending.noConfusion h.1
    rw [hasks]
    exact Completion.attends_rollBackAll.andThen (Completion.attends_pure fun _ h => h)

namespace Request

variable {x : Request} {c : Completion} {s t u : System} {ps : List (System × System)} {φ : Phase}

/-- The request has taken its transaction in the system `u`, and these are its steps since then. -/
structure Admitted (x : Request) (c : Completion) (u : System) (ps : List (System × System)) :
    Prop where
  opens : (u.tx c.tx).Open
  steps : ∃ before s, x.steps = before ++ (u, s) :: ps ∧
    (∀ p ∈ before, Harmless x.manager x.tx x.how p.1 p.2) ∧
    s.tx c.tx = { u.tx c.tx with completing := true }
  taken : ∀ p ∈ ps, (p.1.tx c.tx).Taken

/-- It is the request that took the transaction, and the transaction was not marked. -/
def AcceptedActive (request : Request) : Prop :=
  ∃ p ∈ request.steps, (p.1.tx request.tx).Open ∧ (p.1.tx request.tx).status = .active ∧
    (p.2.tx request.tx).Taken

instance (request : Request) : Decidable request.AcceptedActive :=
  inferInstanceAs (Decidable (∃ p ∈ request.steps, _))

/-- There is only one step in which it can have taken the transaction. -/
lemma Admitted.active_iff (h : x.Admitted c u ps) (hc : c.tx = x.tx) :
    x.AcceptedActive ↔ (u.tx c.tx).status = .active := by
  obtain ⟨before, s, hsteps, hb, hs⟩ := h.steps
  rw [← hc] at hb
  rw [AcceptedActive, hsteps, ← hc]
  constructor
  · rintro ⟨p, hp, hopen, hactive, htaken⟩
    rcases List.mem_append.mp hp with hp | hp
    · exact absurd htaken ((hb p hp).opens hopen).not_taken
    · rcases List.mem_cons.mp hp with rfl | hp
      · exact hactive
      · exact absurd (h.taken p hp) hopen.not_taken
  · intro hactive
    refine ⟨(u, s), by simp, h.opens, hactive, ?_⟩
    dsimp only
    rw [hs]
    exact .inl rfl

/-- A request that was admitted, and where it has come to with the callbacks. -/
structure Attends (x : Request) (c : Completion) (u : System) (ps : List (System × System))
    (φ : Phase) (s : System) : Prop where
  admitted : x.Admitted c u ps
  tracks : x.progress.Tracks (fun _ _ => True) c.Heeds (fun _ φ _ => φ.Through) φ
  reached : φ.Reached ((u.tx c.tx).asks x.how) (u.tx c.tx).afterOrder x.exchanges
  stands : c.Stands (u.tx c.tx) φ x.exchanges ps s
  holds : c.Holds s

/-- What others do leaves it there. -/
lemma Attends.spared (h : x.Attends c u ps φ s) (hs : s.Spares c.tx t) : x.Attends c u ps φ t :=
  ⟨h.admitted, h.tracks, h.reached, h.stands.spared h.holds hs, h.holds.spared hs⟩

lemma Follows.attends (h : x.Follows c s) :
    ∃ u ps φ, x.Attends c u ps φ x.progress.system := by
  obtain ⟨y, before, u, ps, hy, htakes, hb, hsteps, hr⟩ := h.runs
  have hsystem : (y s).system = s := hy.system_eq s
  have hearly := htakes.early
  have hretains : (u.tx c.tx).Retains (s.tx c.tx) := by
    rw [htakes.eq]
    exact ⟨rfl, rfl⟩
  have hasks : (s.tx c.tx).asks x.how = (u.tx c.tx).asks x.how := by
    rw [htakes.eq]
    rfl
  have hs : c.Stands (u.tx c.tx) (.before ((u.tx c.tx).asks x.how)) [] [] (y s).system := by
    rw [hsystem]
    cases (u.tx c.tx).asks x.how with
    | nil => exact .working hretains nofun
    | cons z zs => exact .asking hretains hearly nofun
  have hh : c.Holds (y s).system := by
    rw [hsystem]
    exact ⟨h.size, .inl hearly.completing, hearly.marks⟩
  obtain ⟨φ, ht, hreached, hstands, hholds, htaken⟩ := Completion.exists_phase hr
    (hy.attends.tracks _ s (hasks ▸ rfl)) (hy.proceeds.continues s h.size hearly)
    (Phase.reached_before _ _) hs hh
  rw [hsystem] at hsteps
  exact ⟨u, ps, φ, ⟨htakes.open, ⟨before, s, hsteps, hb, htakes.eq⟩, htaken⟩, ht, hreached, hstands,
    hholds⟩

end Request

end TwoPhaseCommit
