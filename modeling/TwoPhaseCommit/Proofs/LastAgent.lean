import TwoPhaseCommit.Proofs.Aborts

/-!
# Reports on a last agent that was overtaken

A last agent commits before the others, and can be left behind with its work while they are rolled
back: because it has committed a part of it only, or because the decision is not written then. Both
times the caller is told of a mixed outcome. Who else has not acknowledged the rollback is reported
in the first case and not in the second.
-/

namespace TwoPhaseCommit

open Completion (Outcome)

/-! ### Who does not acknowledge a rollback -/

/-- The participant that is told to roll back and does not acknowledge it, with what it answers. -/
def Exchange.holdout? : Exchange → Option HeuristicFailure
  | ⟨.rollback k _, .error e⟩ => if e = .heuristicRollback then none else some ⟨k.id, e⟩
  | _ => none

/-- Those who did not acknowledge a rollback, in the order of the calls. -/
def holdouts (es : List Exchange) : List HeuristicFailure := es.filterMap (·.holdout?)

section Holdouts

variable {es : List Exchange}

@[simp] lemma holdouts_append (es₁ es₂ : List Exchange) :
    holdouts (es₁ ++ es₂) = holdouts es₁ ++ holdouts es₂ :=
  List.filterMap_append

lemma holdouts_cons (e : Exchange) (es : List Exchange) :
    holdouts (e :: es) = e.holdout?.toList ++ holdouts es := by
  unfold holdouts
  rw [List.filterMap_cons]
  cases e.holdout? <;> rfl

lemma Exchange.unconfirmed_of_holdout {e : Exchange} {f : HeuristicFailure}
    (h : e.holdout? = some f) : e.unconfirmed? = some f.resource := by
  unfold holdout? at h
  split at h
  · split at h
    next => cases h
    next hne =>
      cases h
      exact if_neg hne
  · cases h

/-- Where everybody acknowledges the outcome nobody holds out. -/
lemma Neutral.holdouts (h : Neutral es) : TwoPhaseCommit.holdouts es = [] := by
  refine List.filterMap_eq_nil_iff.mpr fun e he => ?_
  by_contra hne
  obtain ⟨f, hf⟩ := Option.ne_none_iff_exists'.mp hne
  have hnone := List.filterMap_eq_nil_iff.mp h.unconfirmed e he
  rw [e.unconfirmed_of_holdout hf] at hnone
  cases hnone

end Holdouts

/-- How a last agent is left behind with what it has committed, and what is reported then. -/
inductive LeftBehind (id : TxId) (k : AdapterKey) (es : List Exchange) :
    List HeuristicFailure → Prop
  /-- It has committed a part of its work only. -/
  | mixed (h : ⟨.commit k id true, .error .heuristicMixed⟩ ∈ es) (hu : ¬Unrecorded es) :
    LeftBehind id k es (⟨k.id, .heuristicMixed⟩ :: holdouts es)
  /-- It has committed, and the decision is not written. -/
  | unwritten {a : Except ResourceError Unit} (ha : a = .ok () ∨ a = .error .heuristicCommit)
      (h : ⟨.commit k id true, a⟩ ∈ es) (hu : Unrecorded es) :
    LeftBehind id k es [⟨k.id, .heuristicCommit⟩]

/-- A report names the last agent first, and then all who did not acknowledge the rollback. -/
def Complete (k : AdapterKey) (es : List Exchange) (fs : List HeuristicFailure) : Prop :=
  ∃ e, fs = ⟨k.id, e⟩ :: holdouts es

section LeftBehind

variable {id : TxId} {k : AdapterKey} {es : List Exchange} {fs : List HeuristicFailure}

/-- Those who hold out are missing where the decision is not written. -/
lemma LeftBehind.complete_iff (h : LeftBehind id k es fs) :
    Complete k es fs ↔ ¬(Unrecorded es ∧ holdouts es ≠ []) := by
  cases h with
  | mixed _ hu => exact iff_of_true ⟨_, rfl⟩ fun h => hu h.1
  | unwritten _ _ hu =>
    constructor
    · rintro ⟨e, heq⟩ ⟨-, hne⟩
      exact hne (List.cons.inj heq).2.symm
    · intro hnot
      have hnil : holdouts es = [] := by
        by_contra hne
        exact hnot ⟨hu, hne⟩
      exact ⟨.heuristicCommit, by rw [hnil]⟩

/-- What is said before, without a part in the outcome, does not matter. -/
lemma LeftBehind.after {es₁ : List Exchange} (h : LeftBehind id k es fs) (hn : Neutral es₁)
    (ha : ∀ e ∈ es₁, e.question.advances = false) : LeftBehind id k (es₁ ++ es) fs := by
  have hun : Unrecorded (es₁ ++ es) ↔ Unrecorded es := unrecorded_append_iff hn ha
  have hholdouts : holdouts es = holdouts (es₁ ++ es) := by
    rw [holdouts_append, hn.holdouts, List.nil_append]
  cases h with
  | mixed h hu =>
    rw [hholdouts]
    exact .mixed (List.mem_append_right _ h) (mt hun.mp hu)
  | unwritten ha h hu => exact .unwritten ha (List.mem_append_right _ h) (hun.mpr hu)

end LeftBehind

namespace Completion

variable {c : Completion} {ps targets prepared : List Participant} {lastAgent : Option Participant}
  {es : List Exchange} {fs : List HeuristicFailure} {id : TxId}

/-! ### What each course reports -/

lemma Tells.holdouts (h : Tells c.rollingBack .heuristicRollback targets es fs) :
    holdouts es = fs := by
  induction h with
  | nil => rfl
  | @confirmed p ps a es fs ha _ ih =>
    have hnone : (c.rollingBack p a).holdout? = none := by
      rcases ha with rfl | rfl <;> rfl
    rw [holdouts_cons, hnone, ih]
    rfl
  | @failed p ps e es fs he _ ih =>
    have hsome : (c.rollingBack p (.error e)).holdout? = some ⟨p.id, e⟩ := if_neg he
    rw [holdouts_cons, hsome, ih]
    rfl

/-- A rollback fails where the outcome is not acknowledged. -/
lemma RollsBack.holdouts (h : RollsBack c targets es fs) : holdouts es = fs := by
  obtain ⟨es₁, time, a, es₂, h₁, h₂, rfl⟩ := h
  rw [holdouts_append, holdouts_cons, h₁.holdouts, h₂.neutral.holdouts]
  exact List.append_nil fs

/-- A last agent that has committed in part is reported with all who hold out. -/
lemma Decides.leftBehind (h : Decides c prepared lastAgent es (.error (.heuristicMixed id fs))) :
    ∃ p, lastAgent = some p ∧ LeftBehind c.id p.adapter es fs := by
  cases h with
  | @mixed p es fs h =>
    have hunrecorded : ¬Unrecorded (c.committing true p (.error .heuristicMixed) :: es) := by
      rintro ⟨⟨e, he, hf, ha⟩, -⟩
      rcases List.mem_cons.mp he with rfl | he
      · cases hf
      · rw [h.not_advances e he] at ha
        cases ha
    have hleft : LeftBehind c.id p.adapter (c.committing true p (.error .heuristicMixed) :: es)
        (⟨p.id, .heuristicMixed⟩ ::
          TwoPhaseCommit.holdouts (c.committing true p (.error .heuristicMixed) :: es)) :=
      .mixed (List.mem_cons_self ..) hunrecorded
    rw [holdouts_cons, h.holdouts] at hleft
    exact ⟨p, rfl, hleft⟩

/-- A last agent that has committed without the decision being written is reported alone. -/
lemma CarriesOut.leftBehind {es₁ : List Exchange}
    (h : CarriesOut c lastAgent prepared es (.error (.heuristicMixed id fs)))
    (h₁ : Decides c prepared lastAgent es₁ (.ok ()))
    (hw : ∀ r ∈ written es, r.decision ≠ .committed) :
    ∃ p, lastAgent = some p ∧ LeftBehind c.id p.adapter (es₁ ++ es) fs := by
  generalize hx : (.error (.heuristicMixed id fs) : Except TxError Unit) = x at h
  cases h with
  | unwritten time e h =>
    have hu : Unrecorded (es₁ ++ c.recording .committed (prepared.map (·.id)) time (.error e) :: _) :=
      unrecorded_of_unwritten (h₁.neutral rfl) h
    cases h₁ with
    | nobody => cases hx
    | @commit p a ha =>
      cases hx
      exact ⟨p, rfl, .unwritten ha (List.mem_cons_self ..) hu⟩
  | nobody time _ _ => exact absurd rfl (hw _ (List.mem_cons_self ..))
  | told time _ _ _ _ _ => exact absurd rfl (hw _ (List.mem_cons_self ..))

lemma TwoPhase.leftBehind (h : TwoPhase c ps es (.error (.heuristicMixed id fs)))
    (hw : ∀ r ∈ written es, r.decision ≠ .committed) :
    ∃ p, ps.find? (!·.twoPhase) = some p ∧ LeftBehind c.id p.adapter es fs := by
  generalize hx : (.error (.heuristicMixed id fs) : Except TxError Unit) = x at h
  cases h with
  | lost h =>
    obtain ⟨why, cause, rfl⟩ := h.rollback_of_error rfl
    cases hx
  | marked _ _ _ => cases hx
  | refused h₁ h₂ =>
    cases hx
    obtain ⟨p, hlast, h⟩ := h₂.leftBehind
    exact ⟨p, hlast, h.after (h₁.neutral rfl) h₁.not_advances⟩
  | decided h₁ h₂ h₃ =>
    subst hx
    obtain ⟨p, hlast, h⟩ := h₃.leftBehind h₂ fun r hr => hw r (by simp [hr])
    exact ⟨p, hlast, h.after (h₁.neutral rfl) h₁.not_advances⟩

/-- A commit without a vote that is reported as mixed has ended with a commit. -/
lemma Direct.committed_of_mixed {status : Status}
    (h : Direct c ps es (.error (.heuristicMixed id fs)) status) : status = .committed := by
  cases h with
  | mixed _ _ _ => rfl

/-- A commit that ends with a rollback is reported as mixed only if its last agent is left behind.
Those who have agreed to it are told to roll back then. -/
lemma Outcome.leftBehind {u : Transaction} {steps : List (System × System)}
    (h : Outcome c u steps .commit es (.error (.heuristicMixed id fs)))
    (hd : (u.participants.map (·.adapter)).Nodup) (hs : u.status = .rolledBack) :
    ∃ k, (u.participants.map (·.adapter)).find? (!·.twoPhase) = some k ∧
      LeftBehind c.id k es fs ∧ TakesBack c.id (u.participants.map (·.adapter)) es := by
  have htallies := h.tallies
  have htakes := h.takesBack hd
  generalize hx : (.error (.heuristicMixed id fs) : Except TxError Unit) = x at h
  cases h with
  | marked _ _ _ _ => cases hx
  | direct _ _ _ _ h =>
    subst hx
    cases hs.symm.trans h.committed_of_mixed
  | @voted befores es x _ hdirect _ hb h _ =>
    subst hx
    -- a commit on record would have ended as committed
    obtain ⟨p, hlast, hleft⟩ := h.leftBehind fun r hr hcommitted => by
      have hstatus := htallies.status r (by simp [hr])
      rw [hs, hcommitted] at hstatus
      cases hstatus
    have hleft := hleft.after hb.neutral hb.not_advances
    refine ⟨p.adapter, ?_, hleft, htakes ?_⟩
    · rw [List.find?_map]
      exact congrArg (Option.map _) hlast
    · have hlate : p.twoPhase = false := by simpa using List.find?_some hlast
      rw [Participant.twoPhase] at hlate
      cases hleft with
      | mixed hmem _ => exact .inl ⟨_, hmem, by simp [Exchange.deserts, hlate]⟩
      | unwritten _ _ hu => exact .inr ⟨hdirect, hu⟩

end Completion

/-! ### In a program -/

namespace Machine

variable {M : Machine} {x : Request} {t : System} {fs : List HeuristicFailure} {id : TxId}

/-- A request that is answered by a mixed outcome is the one that took its transaction. -/
lemma Reachable.accepted_of_mixed (hM : M.Reachable) (hx : x ∈ M.requests)
    (hp : x.progress = .done t (.error (.heuristicMixed id fs))) : x.Accepted := by
  obtain ⟨owner, hsound⟩ := hM.sound
  obtain ⟨i, hi⟩ := List.getElem?_of_mem hx
  by_cases ho : owner x.tx = some i
  · exact (hsound.inside i x hi ho).2
  · obtain ⟨why, hwhy⟩ := (hsound.outside i x hi ho).idle.refused t _ hp
    cases hwhy

/-- A mixed outcome of a transaction that was rolled back is that of a last agent which was left
behind. Those who had agreed to the commit were told to roll back, in the order of their votes. The
report names the last agent and all who did not acknowledge that, with one exception: if the
decision was not written it names nobody else. -/
theorem left_behind_complete_iff (hM : M.Reachable) (hx : x ∈ M.requests)
    (hp : x.progress = .done t (.error (.heuristicMixed id fs)))
    (hs : (M.system.tx x.tx).status = .rolledBack) :
    ∃ k, ((M.system.tx x.tx).participants.map (·.adapter)).find? (!·.twoPhase) = some k ∧
      LeftBehind (M.system.tx x.tx).id k x.exchanges fs ∧
      TakesBack (M.system.tx x.tx).id ((M.system.tx x.tx).participants.map (·.adapter))
        x.exchanges ∧
      (Complete k x.exchanges fs ↔ ¬(Unrecorded x.exchanges ∧ holdouts x.exchanges ≠ [])) := by
  obtain ⟨owner, hsound⟩ := hM.sound
  obtain ⟨i, hi⟩ := List.getElem?_of_mem hx
  have hd := (hsound.distinct x.tx (hsound.refers i x hi)).nodup
  obtain ⟨c, -, hid, houtcome, -⟩ := hM.outcome hx (hM.accepted_of_mixed hx hp) hp
  rw [← hid]
  cases hhow : x.how with
  | rollback =>
    rw [hhow] at houtcome
    cases houtcome
  | commit =>
    rw [hhow] at houtcome
    obtain ⟨k, hk, hleft, htakes⟩ := houtcome.leftBehind hd hs
    exact ⟨k, hk, hleft, htakes, hleft.complete_iff⟩

/-- The last agent commits in part, and one of those who have agreed cannot be reached any more. -/
def divided : Machine :=
  quartet .commit fun
    | .prepare .. => .ok .commit
    | .commit _ _ true => .error .heuristicMixed
    | .rollback k _ => if k.ref = 1 then .error (.unavailable "down") else .ok ()
    | q => Dialogue.someAnswer q

/-- The last agent commits, and the log cannot be written; one of those who have agreed cannot be
reached any more. -/
def forgotten : Machine :=
  quartet .commit fun
    | .prepare .. => .ok .commit
    | .append .. => .error (.io .notFound)
    | .rollback k _ => if k.ref = 1 then .error (.unavailable "down") else .ok ()
    | q => Dialogue.someAnswer q

theorem left_behind_complete_iff_quartet :
    (divided.requests.length = 1 ∧ ∀ x ∈ divided.requests, ∃ k,
      Complete k x.exchanges [⟨⟨"z"⟩, .heuristicMixed⟩, ⟨⟨"a"⟩, .unavailable "down"⟩]) ∧
    (forgotten.requests.length = 1 ∧ ∀ x ∈ forgotten.requests, ∃ k,
      TakesBack (forgotten.system.tx 0).id ((forgotten.system.tx 0).participants.map (·.adapter))
        x.exchanges ∧
      ¬Complete k x.exchanges [⟨⟨"z"⟩, .heuristicCommit⟩]) := by
  refine ⟨⟨by decide +kernel, fun x hx => ?_⟩, by decide +kernel, fun x hx => ?_⟩
  · have hall : ∀ x ∈ divided.requests, x.progress.result? =
        some (.error (.heuristicMixed (divided.system.tx 0).id
          [⟨⟨"z"⟩, .heuristicMixed⟩, ⟨⟨"a"⟩, .unavailable "down"⟩])) ∧
        (divided.system.tx x.tx).status = .rolledBack ∧
        ∀ e ∈ x.exchanges, e.failsToWrite = false := by
      decide +kernel
    obtain ⟨hresult, hstatus, hwrites⟩ := hall x hx
    obtain ⟨t, hdone⟩ := Dialogue.exists_of_result? hresult
    obtain ⟨k, -, -, -, hiff⟩ :=
      left_behind_complete_iff (reachable_quartet ..) hx hdone hstatus
    refine ⟨k, hiff.mpr ?_⟩
    rintro ⟨⟨⟨e, he, hf, -⟩, -⟩, -⟩
    rw [hwrites e he] at hf
    cases hf
  · have hall : ∀ x ∈ forgotten.requests, x.tx = 0 ∧ x.progress.result? =
        some (.error (.heuristicMixed (forgotten.system.tx 0).id
          [⟨⟨"z"⟩, .heuristicCommit⟩])) ∧
        (forgotten.system.tx x.tx).status = .rolledBack ∧
        (∃ e ∈ x.exchanges, e.failsToWrite = true ∧ e.question.advances = true) ∧
        (∀ r ∈ written x.exchanges, r.decision ≠ .committed) ∧ holdouts x.exchanges ≠ [] := by
      decide +kernel
    obtain ⟨htx, hresult, hstatus, hlost, hunwritten, hholdouts⟩ := hall x hx
    obtain ⟨t, hdone⟩ := Dialogue.exists_of_result? hresult
    obtain ⟨k, -, -, htakes, hiff⟩ :=
      left_behind_complete_iff (reachable_quartet ..) hx hdone hstatus
    rw [htx] at htakes
    exact ⟨k, htakes, fun h => hiff.mp h ⟨⟨hlost, hunwritten⟩, hholdouts⟩⟩

/-- A report on a last agent that is left behind can be incomplete. -/
theorem left_behind_incomplete :
    ¬∀ (M : Machine) (x : Request) (t : System) (id : TxId) (fs : List HeuristicFailure),
      M.Reachable → x ∈ M.requests → x.progress = .done t (.error (.heuristicMixed id fs)) →
      (M.system.tx x.tx).status = .rolledBack → ∃ k, Complete k x.exchanges fs := by
  intro h
  have hall : ∀ x ∈ forgotten.requests, x.progress.result? =
      some (.error (.heuristicMixed (forgotten.system.tx 0).id [⟨⟨"z"⟩, .heuristicCommit⟩])) ∧
      (forgotten.system.tx x.tx).status = .rolledBack ∧ holdouts x.exchanges ≠ [] := by
    decide +kernel
  obtain ⟨x, hx⟩ : ∃ x, x ∈ forgotten.requests :=
    List.exists_mem_of_length_pos (by decide +kernel)
  obtain ⟨hresult, hstatus, hholdouts⟩ := hall x hx
  obtain ⟨t, hdone⟩ := Dialogue.exists_of_result? hresult
  obtain ⟨k, e, heq⟩ := h forgotten x t _ _ (reachable_quartet ..) hx hdone hstatus
  exact hholdouts (List.cons.inj heq).2.symm

end Machine

end TwoPhaseCommit
