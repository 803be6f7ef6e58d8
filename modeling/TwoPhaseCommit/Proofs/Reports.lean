import TwoPhaseCommit.Proofs.Aborts

/-!
# What the caller is told of an outcome

What a commit answers is set against what its participants have said of their work. `Accounts` lists
the kinds of answers, each with what was said then (`Outcome.accounts`). Two things that a caller
would take for granted follow with an exception each. A plain rollback may hide work that is
committed, if a participant admits to it only when it is told to roll back. And that everybody
rolled back may be reported of participants that are still prepared.
-/

namespace TwoPhaseCommit

open Completion (Outcome)

/-! ### What participants say of their work -/

/-- A participant that is told to commit says that it has done so, in part at least. -/
def Exchange.commits : Exchange → Bool
  | ⟨.commit .., .ok _⟩ => true
  | ⟨.commit .., .error e⟩ => e = .heuristicCommit || e = .heuristicMixed
  | _ => false

/-- A participant that is told to roll back says that it has committed, in part at least. -/
def Exchange.defies : Exchange → Bool
  | ⟨.rollback .., .error e⟩ => e = .heuristicCommit || e = .heuristicMixed
  | _ => false

/-- A participant says that it does not commit, or not all of its work. -/
def Exchange.withholds : Exchange → Bool
  | ⟨.prepare .., .ok v⟩ => v = .rollback
  | ⟨.commit .., .error e⟩ => e ≠ .heuristicCommit
  | ⟨.rollback .., .ok _⟩ => true
  | ⟨.rollback .., .error e⟩ => e ≠ .heuristicCommit
  | _ => false

/-- The participant that is told in phase two to commit and cannot do it now. Its work is still
prepared. -/
def Exchange.stalled? : Exchange → Option ResourceId
  | ⟨.commit k _ false, .error (.failed _)⟩ => some k.id
  | ⟨.commit k _ false, .error (.unavailable _)⟩ => some k.id
  | _ => none

/-- Those who are still prepared although they were told to commit. -/
def stalled (es : List Exchange) : List ResourceId := es.filterMap (·.stalled?)

/-- Nobody commits, and nobody who should fails to. -/
def Idle (es : List Exchange) : Prop := ∀ e ∈ es, e.commits = false ∧ e.stalled? = none

/-- Nobody says that work is not committed, and nobody who was told to roll back has committed. -/
def Loyal (es : List Exchange) : Prop := ∀ e ∈ es, e.defies = false ∧ e.withholds = false

/-- Exchanges in which nobody says anything of an outcome. -/
structure Preliminary (es : List Exchange) : Prop where
  idle : Idle es
  loyal : Loyal es

section Words

variable {es es₁ es₂ : List Exchange}

lemma Exchange.advances_of_commits {e : Exchange} (h : e.commits = true) :
    e.question.advances = true := by
  obtain ⟨q, a⟩ := e
  cases q with
  | commit k i onePhase => rfl
  | _ => cases h

lemma Exchange.of_stalled {e : Exchange} {id : ResourceId} (h : e.stalled? = some id) :
    e.question.advances = true ∧ e.withholds = true ∧ e.unconfirmed? = some id := by
  unfold stalled? at h
  split at h
  · exact ⟨rfl, rfl, by simpa [unconfirmed?] using h⟩
  · exact ⟨rfl, rfl, by simpa [unconfirmed?] using h⟩
  · cases h

/-- Where nothing serves a commit nobody commits, and nobody fails to. -/
lemma idle_of_not_advances (h : ∀ e ∈ es, e.question.advances = false) : Idle es := by
  intro e he
  refine ⟨?_, ?_⟩
  · by_contra hc
    have ha := e.advances_of_commits (Bool.not_eq_false _ ▸ hc)
    rw [h e he] at ha
    cases ha
  · by_contra hs
    obtain ⟨id, hid⟩ := Option.ne_none_iff_exists'.mp hs
    have ha := (e.of_stalled hid).1
    rw [h e he] at ha
    cases ha

@[simp] lemma stalled_append (es₁ es₂ : List Exchange) :
    stalled (es₁ ++ es₂) = stalled es₁ ++ stalled es₂ :=
  List.filterMap_append

/-- Whoever is still prepared is among those who did not confirm the outcome. -/
lemma stalled_subset (es : List Exchange) : stalled es ⊆ unconfirmed es := by
  intro id hid
  obtain ⟨e, he, hs⟩ := List.mem_filterMap.mp hid
  exact List.mem_filterMap.mpr ⟨e, he, (e.of_stalled hs).2.2⟩

lemma Idle.stalled (h : Idle es) : stalled es = [] :=
  List.filterMap_eq_nil_iff.mpr fun e he => (h e he).2

lemma Loyal.stalled (h : Loyal es) : TwoPhaseCommit.stalled es = [] := by
  refine List.filterMap_eq_nil_iff.mpr fun e he => ?_
  by_contra hs
  obtain ⟨id, hid⟩ := Option.ne_none_iff_exists'.mp hs
  have hw := (e.of_stalled hid).2.1
  rw [(h e he).2] at hw
  cases hw

lemma Idle.append (h₁ : Idle es₁) (h₂ : Idle es₂) : Idle (es₁ ++ es₂) :=
  List.forall_mem_append.mpr ⟨h₁, h₂⟩

lemma Loyal.append (h₁ : Loyal es₁) (h₂ : Loyal es₂) : Loyal (es₁ ++ es₂) :=
  List.forall_mem_append.mpr ⟨h₁, h₂⟩

lemma preliminary_nil : Preliminary [] := ⟨by simp [Idle], by simp [Loyal]⟩

lemma Preliminary.append (h₁ : Preliminary es₁) (h₂ : Preliminary es₂) :
    Preliminary (es₁ ++ es₂) :=
  ⟨h₁.idle.append h₂.idle, h₁.loyal.append h₂.loyal⟩

lemma Preliminary.unmoved (h : Preliminary es) :
    ∀ e ∈ es, e.commits = false ∧ e.defies = false :=
  fun e he => ⟨(h.idle e he).1, (h.loyal e he).1⟩

lemma preliminary_of_forall
    (h : ∀ e ∈ es,
      e.commits = false ∧ e.stalled? = none ∧ e.defies = false ∧ e.withholds = false) :
    Preliminary es :=
  ⟨fun e he => ⟨(h e he).1, (h e he).2.1⟩, fun e he => (h e he).2.2⟩

lemma Preliminary.cons {e : Exchange} (h : Preliminary [e]) (h' : Preliminary es) :
    Preliminary (e :: es) :=
  h.append h'

end Words

namespace Completion

variable {c : Completion} {ps targets prepared unvoted : List Participant}
  {lastAgent : Option Participant} {es es₁ es₂ : List Exchange} {fs : List HeuristicFailure}
  {tell : Participant → Except ResourceError Unit → Exchange} {own : ResourceError}

lemma preliminary_recording (d : Decision) (pending : List ResourceId) (time : UInt64)
    (a : Except StorageError Unit) : Preliminary [c.recording d pending time a] :=
  preliminary_of_forall (List.forall_mem_singleton.mpr ⟨rfl, rfl, rfl, rfl⟩)

lemma Notifies.preliminary {outcome : Status} (h : Notifies outcome es) : Preliminary es := by
  apply preliminary_of_forall
  rintro ⟨q, a⟩ he
  obtain ⟨x, rfl⟩ := h.question _ he
  exact ⟨rfl, rfl, rfl, rfl⟩

lemma Readies.preliminary (h : Readies es) : Preliminary es := by
  apply preliminary_of_forall
  rintro ⟨q, a⟩ he
  obtain ⟨x, rfl⟩ := h _ he
  exact ⟨rfl, rfl, rfl, rfl⟩

lemma preliminary_ballot (p : Participant) {v : Vote} (hv : v ≠ .rollback) :
    Preliminary [c.ballot p (.ok v)] := by
  apply preliminary_of_forall
  simp [ballot, Exchange.commits, Exchange.defies, Exchange.withholds, Exchange.stalled?, hv]

lemma Votes.preliminary {v : Except TxError (List Participant)} {won : List Participant}
    (h : Votes c lastAgent prepared unvoted es v) (hv : v = .ok won) : Preliminary es := by
  induction h with
  | all => exact preliminary_nil
  | marked _ _ => cases hv
  | commit _ ih => exact .cons (preliminary_ballot _ (by simp)) (ih hv)
  | readOnly _ ih => exact .cons (preliminary_ballot _ (by simp)) (ih hv)
  | rollback _ => cases hv
  | failed _ _ => cases hv

/-! ### Who confirms and who fails -/

/-- Whoever is told confirms, or is among the failures. -/
lemma Tells.answer (h : Tells tell own targets es fs) {e : Exchange} (he : e ∈ es) :
    ∃ p ∈ targets, ∃ a, e = tell p a ∧ ((a = .ok () ∨ a = .error own) ∨
      ∃ err, err ≠ own ∧ a = .error err ∧ ⟨p.id, err⟩ ∈ fs) := by
  induction h with
  | nil => cases he
  | confirmed ha _ ih =>
    rcases List.mem_cons.mp he with rfl | he
    · exact ⟨_, List.mem_cons_self .., _, rfl, .inl ha⟩
    · obtain ⟨p, hp, h⟩ := ih he
      exact ⟨p, List.mem_cons_of_mem _ hp, h⟩
  | failed hne _ ih =>
    rcases List.mem_cons.mp he with rfl | he
    · exact ⟨_, List.mem_cons_self .., _, rfl, .inr ⟨_, hne, rfl, List.mem_cons_self ..⟩⟩
    · obtain ⟨p, hp, a, rfl, h | ⟨err, herr, rfl, hmem⟩⟩ := ih he
      · exact ⟨p, List.mem_cons_of_mem _ hp, a, rfl, .inl h⟩
      · exact ⟨p, List.mem_cons_of_mem _ hp, _, rfl,
          .inr ⟨err, herr, rfl, List.mem_cons_of_mem _ hmem⟩⟩

lemma Tells.exists_failed (h : Tells tell own targets es fs) {f : HeuristicFailure} (hf : f ∈ fs) :
    ∃ p, tell p (.error f.error) ∈ es := by
  induction h with
  | nil => cases hf
  | confirmed _ _ ih =>
    obtain ⟨p, hp⟩ := ih hf
    exact ⟨p, List.mem_cons_of_mem _ hp⟩
  | failed _ _ ih =>
    rcases List.mem_cons.mp hf with rfl | hf
    · exact ⟨_, List.mem_cons_self ..⟩
    · obtain ⟨p, hp⟩ := ih hf
      exact ⟨p, List.mem_cons_of_mem _ hp⟩

lemma Tells.length_le (h : Tells tell own targets es fs) : fs.length ≤ targets.length := by
  have hle := h.sublist.length_le
  rwa [List.length_map, List.length_map] at hle

/-- With fewer failures than were told, somebody has confirmed. -/
lemma Tells.exists_confirmed (h : Tells tell own targets es fs) (hlt : fs.length < targets.length) :
    ∃ p a, (a = .ok () ∨ a = .error own) ∧ tell p a ∈ es := by
  induction h with
  | nil => cases hlt
  | confirmed ha _ _ => exact ⟨_, _, ha, List.mem_cons_self ..⟩
  | failed _ _ ih =>
    obtain ⟨p, a, ha, hmem⟩ := ih (Nat.lt_of_succ_lt_succ hlt)
    exact ⟨p, a, ha, List.mem_cons_of_mem _ hmem⟩

/-- With as many failures, nobody has. -/
lemma Tells.all_failed (h : Tells tell own targets es fs) (hle : targets.length ≤ fs.length) :
    (∀ p ∈ targets, ∃ f ∈ fs, tell p (.error f.error) ∈ es) ∧
      ∀ e ∈ es, ∃ p, ∃ f ∈ fs, f.error ≠ own ∧ e = tell p (.error f.error) := by
  induction h with
  | nil => simp
  | confirmed _ h _ => exact absurd (hle.trans h.length_le) (Nat.not_succ_le_self _)
  | @failed p ps e es fs hne h ih =>
    obtain ⟨htold, hanswers⟩ := ih (Nat.le_of_succ_le_succ hle)
    refine ⟨List.forall_mem_cons.mpr ⟨⟨_, List.mem_cons_self .., List.mem_cons_self ..⟩, ?_⟩,
      List.forall_mem_cons.mpr ⟨⟨p, _, List.mem_cons_self .., hne, rfl⟩, ?_⟩⟩
    · intro q hq
      obtain ⟨f, hf, hmem⟩ := htold q hq
      exact ⟨f, List.mem_cons_of_mem _ hf, List.mem_cons_of_mem _ hmem⟩
    · intro e' he'
      obtain ⟨q, f, hf, hne, rfl⟩ := hanswers e' he'
      exact ⟨q, f, List.mem_cons_of_mem _ hf, hne, rfl⟩

/-! ### The kinds of answers -/

/-- What a commit answers, and what was said by then. -/
inductive Accounts (c : Completion) (es : List Exchange) : Except TxError Unit → Prop
  | success (h : Loyal es) : Accounts c es (.ok ())
  | rollback (why : RollbackReason) (cause : Option ResourceError) (h : Idle es) :
    Accounts c es (.error (.rollback c.id why cause))
  | mixed (fs : List HeuristicFailure) (h : ∃ e ∈ es, e.commits = true) :
    Accounts c es (.error (.heuristicMixed c.id fs))
  /-- All who voted to commit have failed to, and none of them has done it in part. -/
  | reversed (fs : List HeuristicFailure) (h : ∀ e ∈ es, e.commits = false ∧ e.defies = false)
      (ha : ∀ k ∈ agreed es, ∃ err, ⟨.commit k c.id false, .error err⟩ ∈ es) :
    Accounts c es (.error (.heuristicRollback c.id fs))

section Accounts

variable {x : Except TxError Unit}

/-- What is said before anything is said of an outcome does not matter. -/
lemma Accounts.after (h : Accounts c es₂ x) (h₁ : Preliminary es₁) (hu : agreed es₁ = []) :
    Accounts c (es₁ ++ es₂) x := by
  cases h with
  | success h => exact .success (h₁.loyal.append h)
  | rollback why cause h => exact .rollback why cause (h₁.idle.append h)
  | mixed fs h =>
    obtain ⟨e, he, hc⟩ := h
    exact .mixed fs ⟨e, List.mem_append_right _ he, hc⟩
  | reversed fs h ha =>
    refine .reversed fs (List.forall_mem_append.mpr ⟨h₁.unmoved, h⟩) fun k hk => ?_
    rw [agreed_append, hu, List.nil_append] at hk
    obtain ⟨err, hmem⟩ := ha k hk
    exact ⟨err, List.mem_append_right _ hmem⟩

/-- Who confirms a commit says so, and nothing else. -/
lemma commits_of_confirmed {p : Participant} {a : Except ResourceError Unit} (onePhase : Bool)
    (ha : a = .ok () ∨ a = .error .heuristicCommit) :
    (c.committing onePhase p a).commits = true ∧ Loyal [c.committing onePhase p a] := by
  rcases ha with rfl | rfl
  · exact ⟨rfl, List.forall_mem_singleton.mpr ⟨rfl, rfl⟩⟩
  · simp [Loyal, committing, Exchange.commits, Exchange.defies, Exchange.withholds]

lemma not_commits_of_failed {p : Participant} {e : ResourceError} (onePhase : Bool)
    (he : e ≠ .heuristicCommit) (he' : e ≠ .heuristicMixed) :
    (c.committing onePhase p (.error e)).commits = false := by
  simp [committing, Exchange.commits, he, he']

lemma Direct.accounts {status : Status} (h : Direct c ps es x status) : Accounts c es x := by
  have hrest : ∀ {d outcome es} time a, Notifies outcome es →
      Preliminary (c.recording d [] time a :: es) :=
    fun time a h => .cons (preliminary_recording ..) h.preliminary
  cases h with
  | nobody time a h => exact .success (hrest time a h).loyal
  | committed time a hx h =>
    exact .success ((commits_of_confirmed true hx).2.append (hrest time a h).loyal)
  | mixed time a h =>
    exact .mixed _ ⟨_, List.mem_cons_self .., by simp [committing, Exchange.commits]⟩
  | failed time a he he' h =>
    exact .rollback _ _ (List.forall_mem_cons.mpr ⟨⟨not_commits_of_failed true he he', rfl⟩,
      (hrest time a h).idle⟩)

lemma Decides.commits {p : Participant} (h : Decides c prepared (some p) es (.ok ())) :
    ∃ e ∈ es, e.commits = true := by
  cases h with
  | commit ha => exact ⟨_, List.mem_cons_self .., (commits_of_confirmed true ha).1⟩

lemma Decides.loyal (h : Decides c prepared lastAgent es x) (hx : x = .ok ()) : Loyal es := by
  cases h with
  | nobody => simp [Loyal]
  | commit ha => exact (commits_of_confirmed true ha).2
  | mixed _ => cases hx
  | failed _ _ _ => cases hx

lemma RollsBack.idle (h : RollsBack c targets es fs) : Idle es :=
  idle_of_not_advances h.not_advances

lemma Decides.refusing {e : TxError} (h : Decides c prepared lastAgent es x) (hx : x = .error e)
    (hv : Preliminary es₁) : Accounts c (es₁ ++ es) x := by
  cases h with
  | nobody => cases hx
  | commit _ => cases hx
  | @mixed p es fs h =>
    refine .mixed _ ⟨c.committing true p (.error .heuristicMixed), ?_, ?_⟩
    · simp
    · simp [committing, Exchange.commits]
  | failed he he' h =>
    exact .rollback _ _ (hv.idle.append
      (List.forall_mem_cons.mpr ⟨⟨not_commits_of_failed true he he', rfl⟩, h.idle⟩))

/-- Where all have confirmed nobody has anything else to say. -/
lemma Tells.loyal (h : Tells (c.committing false) .heuristicCommit targets es []) : Loyal es := by
  intro e he
  obtain ⟨p, -, a, rfl, ha | ⟨_, _, _, hmem⟩⟩ := h.answer he
  · exact (commits_of_confirmed false ha).2 _ (List.mem_singleton_self _)
  · cases hmem

/-- Where somebody has confirmed it is a divergence. -/
lemma Tells.commits (h : Tells (c.committing false) .heuristicCommit targets es fs)
    (hlt : fs.length < targets.length ∨ fs.any (·.error == .heuristicMixed) = true) :
    ∃ e ∈ es, e.commits = true := by
  rcases hlt with hlt | hany
  · obtain ⟨p, a, ha, hmem⟩ := h.exists_confirmed hlt
    exact ⟨_, hmem, (commits_of_confirmed false ha).1⟩
  · obtain ⟨f, hf, he⟩ := List.any_eq_true.mp hany
    obtain ⟨p, hmem⟩ := h.exists_failed hf
    refine ⟨_, hmem, ?_⟩
    simp [committing, Exchange.commits, beq_iff_eq.mp he]

/-- Where nobody has it is called a rollback. -/
lemma Tells.reversed (h : Tells (c.committing false) .heuristicCommit targets es fs)
    (hle : targets.length ≤ fs.length) (hany : fs.any (·.error == .heuristicMixed) = false) :
    (∀ e ∈ es, e.commits = false ∧ e.defies = false) ∧
      ∀ k ∈ targets.map (·.adapter), ∃ err, ⟨.commit k c.id false, .error err⟩ ∈ es := by
  obtain ⟨htold, hanswers⟩ := h.all_failed hle
  constructor
  · intro e he
    obtain ⟨p, f, hf, hne, rfl⟩ := hanswers e he
    have hmixed : f.error ≠ .heuristicMixed := by
      intro hm
      have := List.any_eq_false.mp hany f hf
      simp [hm] at this
    exact ⟨not_commits_of_failed false hne hmixed, rfl⟩
  · intro k hk
    obtain ⟨p, hp, rfl⟩ := List.mem_map.mp hk
    obtain ⟨f, -, hmem⟩ := htold p hp
    exact ⟨_, hmem⟩

lemma CarriesOut.accounts (h : CarriesOut c lastAgent prepared es x)
    (hd : Decides c prepared lastAgent es₂ (.ok ())) (hv : Preliminary es₁)
    (ha : prepared.map (·.adapter) = agreed es₁) : Accounts c (es₁ ++ (es₂ ++ es)) x := by
  have hsecond : (∃ e ∈ es₂, e.commits = true) → ∃ e ∈ es₁ ++ (es₂ ++ es), e.commits = true := by
    rintro ⟨e, he, hc⟩
    exact ⟨e, List.mem_append_right _ (List.mem_append_left _ he), hc⟩
  have hunpolling := h.unpolling
  cases h with
  | unwritten time e h =>
    -- the decision is lost: only a last agent can have committed so far
    cases lastAgent with
    | some p => exact .mixed _ (hsecond hd.commits)
    | none =>
      cases hd with
      | nobody =>
        exact .rollback _ _
          (hv.idle.append (Preliminary.idle (preliminary_recording ..) |>.append h.idle))
  | nobody time hp h =>
    refine .success (hv.loyal.append ((hd.loyal rfl).append ?_))
    exact (Preliminary.cons (preliminary_recording ..) h.preliminary).loyal
  | @told es₃ es₄ fs time time' a hp h₁ h₂ =>
    have hdecision := preliminary_recording (c := c) .committed (prepared.map (·.id)) time (.ok ())
    have hrest := Preliminary.cons
      (preliminary_recording (c := c) .committed (fs.map (·.resource)) time' a) h₂.preliminary
    have hthird : (∃ e ∈ es₃, e.commits = true) → ∃ e ∈ es₁ ++ (es₂ ++
        (c.recording .committed (prepared.map (·.id)) time (.ok ()) :: es₃ ++
          c.recording .committed (fs.map (·.resource)) time' a :: es₄)), e.commits = true := by
      rintro ⟨e, he, hc⟩
      refine ⟨e, ?_, hc⟩
      simp [he]
    unfold report
    split
    next hfs =>
      obtain rfl := List.isEmpty_iff.mp hfs
      exact .success (hv.loyal.append ((hd.loyal rfl).append
        ((hdecision.loyal.append h₁.loyal).append hrest.loyal)))
    next hfs =>
      unfold divergence
      dsimp only
      split
      -- somebody is known to have committed
      next hany =>
        refine .mixed _ ?_
        rcases Bool.or_eq_true .. |>.mp hany with hany | hany
        · rcases Bool.or_eq_true .. |>.mp hany with hsome | hlt
          · obtain ⟨p, rfl⟩ := Option.isSome_iff_exists.mp hsome
            exact hsecond hd.commits
          · exact hthird (h₁.commits (.inl (of_decide_eq_true hlt)))
        · exact hthird (h₁.commits (.inr hany))
      -- all who were told count as failed, and there is no last agent
      next hnone =>
        simp only [Bool.or_eq_true, not_or, Bool.not_eq_true, decide_eq_true_eq, not_lt] at hnone
        obtain ⟨⟨hlast, hle⟩, hany⟩ := hnone
        obtain rfl := Option.isSome_eq_false_iff.mp hlast |> Option.isNone_iff_eq_none.mp
        obtain ⟨hanswers, htold⟩ := h₁.reversed hle hany
        cases hd with
        | nobody =>
          refine .reversed _ ?_ fun k hk => ?_
          · rw [List.nil_append]
            exact List.forall_mem_append.mpr ⟨hv.unmoved, List.forall_mem_append.mpr
              ⟨List.forall_mem_append.mpr ⟨hdecision.unmoved, hanswers⟩, hrest.unmoved⟩⟩
          · rw [List.nil_append, agreed_append, hunpolling.agreed, List.append_nil, ← ha] at hk
            obtain ⟨err, hmem⟩ := htold k hk
            refine ⟨err, ?_⟩
            simp [hmem]

lemma TwoPhase.accounts (h : TwoPhase c ps es x) : Accounts c es x := by
  cases h with
  | lost h =>
    obtain ⟨why, cause, rfl⟩ := h.rollback_of_error rfl
    exact .rollback why cause (idle_of_not_advances h.not_advances)
  | marked why h₁ h₂ => exact .rollback why none ((h₁.preliminary rfl).idle.append h₂.idle)
  | refused h₁ h₂ => exact h₂.refusing rfl (h₁.preliminary rfl)
  | decided h₁ h₂ h₃ => exact h₃.accounts h₂ (h₁.preliminary rfl) (h₁.calls_of_ok rfl).2.2.1

lemma Outcome.accounts {u : Transaction} {steps : List (System × System)}
    (h : Outcome c u steps .commit es x) : Accounts c es x := by
  cases h with
  | marked _ _ hb h => exact .rollback _ none (hb.preliminary.idle.append h.idle)
  | direct _ _ _ hb h => exact h.accounts.after hb.preliminary hb.unpolling.agreed
  | voted _ _ _ hb h _ => exact h.accounts.after hb.preliminary hb.unpolling.agreed

/-! ### Who is still prepared is in the log -/

/-- Who commits in one phase is not prepared for it. -/
lemma stalled_committing (p : Participant) (a : Except ResourceError Unit) (es : List Exchange) :
    stalled (c.committing true p a :: es) = stalled es := rfl

lemma Direct.stalled {status : Status} (h : Direct c ps es x status) : stalled es = [] := by
  have hrest : ∀ {d outcome es} time a, Notifies outcome es →
      TwoPhaseCommit.stalled (c.recording d [] time a :: es) = [] :=
    fun time a h => (Preliminary.cons (preliminary_recording ..) h.preliminary).idle.stalled
  cases h with
  | nobody time a h => exact hrest time a h
  | committed time a _ h => exact (stalled_committing ..).trans (hrest time a h)
  | mixed time a h => exact (stalled_committing ..).trans (hrest time a h)
  | failed time a _ _ h => exact (stalled_committing ..).trans (hrest time a h)

lemma Decides.stalled (h : Decides c prepared lastAgent es x) : stalled es = [] := by
  cases h with
  | nobody => rfl
  | commit _ => rfl
  | mixed h => exact h.idle.stalled
  | failed _ _ h => exact h.idle.stalled

lemma CarriesOut.recorded (h : CarriesOut c lastAgent prepared es x) (hs : stalled es ≠ []) :
    ∃ r ∈ written es, r.decision = .committed := by
  have hrecording : ∀ {d pending time a}, Idle [c.recording d pending time a] :=
    (preliminary_recording ..).idle
  cases h with
  | unwritten time e h => exact absurd (hrecording.append h.idle).stalled hs
  | nobody time _ h => exact absurd (hrecording.append h.preliminary.idle).stalled hs
  | told time _ _ _ _ _ => exact ⟨_, List.mem_cons_self .., rfl⟩

lemma TwoPhase.recorded (h : TwoPhase c ps es x) (hs : stalled es ≠ []) :
    ∃ r ∈ written es, r.decision = .committed := by
  cases h with
  | lost h => exact absurd (idle_of_not_advances h.not_advances).stalled hs
  | marked _ h₁ h₂ => exact absurd ((h₁.preliminary rfl).idle.append h₂.idle).stalled hs
  | refused h₁ h₂ => exact absurd (by simp [(h₁.preliminary rfl).idle.stalled, h₂.stalled]) hs
  | decided h₁ h₂ h₃ =>
    rw [stalled_append, stalled_append, (h₁.preliminary rfl).idle.stalled, h₂.stalled] at hs
    obtain ⟨r, hr, hd⟩ := h₃.recorded hs
    exact ⟨r, by simp [hr], hd⟩

/-- Whoever is still prepared is pending in every record, and these are of a commit. -/
lemma Outcome.pending {u : Transaction} {steps : List (System × System)}
    (h : Outcome c u steps .commit es x) {id : ResourceId} (hid : id ∈ stalled es) :
    written es ≠ [] ∧ ∀ r ∈ written es, r.decision = .committed ∧ id ∈ r.pending := by
  have hs : stalled es ≠ [] := List.ne_nil_of_mem hid
  have hcovers := h.books.covers
  have hstatus := h.tallies.status
  -- who is still prepared was told of a decision that is on record
  have hrecorded : ∃ r ∈ written es, r.decision = .committed := by
    cases h with
    | marked _ _ hb h => exact absurd (hb.preliminary.idle.append h.idle).stalled hs
    | direct _ _ _ hb h => exact absurd (by simp [hb.preliminary.idle.stalled, h.stalled]) hs
    | voted _ _ _ hb h _ =>
      rw [stalled_append, hb.preliminary.idle.stalled] at hs
      obtain ⟨r, hr, hd⟩ := h.recorded hs
      exact ⟨r, by simp [hr], hd⟩
  obtain ⟨r, hr, hd⟩ := hrecorded
  refine ⟨List.ne_nil_of_mem hr, fun r' hr' => ⟨?_, hcovers r' hr' (stalled_subset es hid)⟩⟩
  have hsame := (hstatus r hr).symm.trans (hstatus r' hr')
  rw [hd] at hsame
  cases hd' : r'.decision with
  | committed => rfl
  | rolledBack =>
    rw [hd'] at hsame
    cases hsame

end Accounts

end Completion

/-! ### In a program -/

/-- What the caller is told hides no committed work. -/
structure Candid (es : List Exchange) (result : Except TxError Unit) : Prop where
  /-- If a rollback is reported nobody has said that any of its work is committed. -/
  rollback : ∀ id why cause, result = .error (.rollback id why cause) →
    ∀ e ∈ es, e.commits = false ∧ e.defies = false
  /-- If somebody has and somebody says that its work is not, a heuristic error is reported. -/
  heuristic : ∀ e ∈ es, e.commits = true ∨ e.defies = true → ∀ e' ∈ es, e'.withholds = true →
    ∃ err : TxError, result = .error err ∧ err.isHeuristic = true

/-- That everybody has rolled back is reported of those only who did. -/
structure Genuine (es : List Exchange) (result : Except TxError Unit) : Prop where
  reversed : ∀ id fs, result = .error (.heuristicRollback id fs) → ∀ k ∈ agreed es,
    ⟨.commit k id false, .error .heuristicRollback⟩ ∈ es
  /-- It is not reported where somebody is still prepared. -/
  prepared : stalled es ≠ [] → ∀ id fs, result ≠ .error (.heuristicRollback id fs)

section Judgements

variable {c : Completion} {es : List Exchange} {result : Except TxError Unit}

lemma candid_nil (result : Except TxError Unit) : Candid [] result := ⟨by simp, by simp⟩

lemma genuine_nil (result : Except TxError Unit) : Genuine [] result := ⟨by simp [agreed, asked],
  by simp [stalled]⟩

/-- Committed work is hidden if it is only confessed to when all is to be rolled back. -/
lemma Completion.Accounts.candid_iff (h : c.Accounts es result) :
    Candid es result ↔ ¬((∃ e ∈ es, e.defies = true) ∧ ∀ e ∈ es, e.commits = false) := by
  cases h with
  | success h =>
    refine iff_of_true ⟨nofun, fun e he hc e' he' hw => ?_⟩ ?_
    · rw [(h e' he').2] at hw
      cases hw
    · rintro ⟨⟨e, he, hd⟩, -⟩
      rw [(h e he).1] at hd
      cases hd
  | rollback why cause h =>
    constructor
    · rintro hcandid ⟨⟨e, he, hd⟩, -⟩
      rw [(hcandid.rollback _ _ _ rfl e he).2] at hd
      cases hd
    · intro hnot
      -- otherwise the committed work would be hidden
      have hdefies : ∀ e ∈ es, e.defies = false := by
        intro e he
        by_contra hd
        exact hnot ⟨⟨e, he, Bool.not_eq_false _ ▸ hd⟩, fun e he => (h e he).1⟩
      refine ⟨fun _ _ _ _ e he => ⟨(h e he).1, hdefies e he⟩, fun e he hc => ?_⟩
      rw [(h e he).1, hdefies e he] at hc
      simp at hc
  | mixed fs h =>
    refine iff_of_true ⟨nofun, fun _ _ _ _ _ _ => ⟨_, rfl, rfl⟩⟩ ?_
    obtain ⟨e, he, hc⟩ := h
    rintro ⟨-, hnone⟩
    rw [hnone e he] at hc
    cases hc
  | reversed fs h _ =>
    refine iff_of_true ⟨nofun, fun _ _ _ _ _ _ => ⟨_, rfl, rfl⟩⟩ ?_
    rintro ⟨⟨e, he, hd⟩, -⟩
    rw [(h e he).2] at hd
    cases hd

/-- Whoever has neither committed nor is still prepared has rolled back. -/
lemma Exchange.eq_of_not_stalled {k : AdapterKey} {i : TxId} {err : ResourceError}
    (hc : (⟨.commit k i false, .error err⟩ : Exchange).commits = false)
    (hs : (⟨.commit k i false, .error err⟩ : Exchange).stalled? = none) :
    err = .heuristicRollback := by
  cases err with
  | heuristicRollback => rfl
  | failed _ => cases hs
  | unavailable _ => cases hs
  | heuristicCommit => simp [Exchange.commits] at hc
  | heuristicMixed => simp [Exchange.commits] at hc

lemma Completion.Accounts.genuine_iff (h : c.Accounts es result) :
    Genuine es result ↔ ¬(stalled es ≠ [] ∧ ∀ e ∈ es, e.commits = false) := by
  cases h with
  | success h =>
    exact iff_of_true ⟨nofun, nofun⟩ fun hs => hs.1 h.stalled
  | rollback why cause h =>
    exact iff_of_true ⟨nofun, nofun⟩ fun hs => hs.1 h.stalled
  | mixed fs h =>
    refine iff_of_true ⟨nofun, nofun⟩ ?_
    obtain ⟨e, he, hc⟩ := h
    rintro ⟨-, hnone⟩
    rw [hnone e he] at hc
    cases hc
  | reversed fs h ha =>
    constructor
    · rintro hgenuine ⟨hs, -⟩
      exact hgenuine.prepared hs _ _ rfl
    · intro hnot
      -- nobody is prepared still, so that all who agreed have rolled back
      have hnil : stalled es = [] := by
        by_contra hs
        exact hnot ⟨hs, fun e he => (h e he).1⟩
      refine ⟨fun id fs' heq k hk => ?_, fun hs => absurd hnil hs⟩
      cases heq
      obtain ⟨err, hmem⟩ := ha k hk
      have hs := List.filterMap_eq_nil_iff.mp hnil _ hmem
      rwa [Exchange.eq_of_not_stalled (h _ hmem).1 hs] at hmem

end Judgements

namespace Machine

variable {M : Machine} {x : Request} {t : System} {result : Except TxError Unit}

/-- A request that has come to its end has said nothing, or has come to an outcome. -/
lemma Reachable.silent_or_outcome (hM : M.Reachable) (hx : x ∈ M.requests)
    (hp : x.progress = .done t result) :
    x.exchanges = [] ∨ ∃ c : Completion, c.tx = x.tx ∧ c.id = (M.system.tx x.tx).id ∧
      Outcome c (M.system.tx x.tx) x.steps x.how x.exchanges result := by
  obtain ⟨owner, hsound⟩ := hM.sound
  obtain ⟨i, hi⟩ := List.getElem?_of_mem hx
  by_cases ho : owner x.tx = some i
  · obtain ⟨c, hc, hid, houtcome, -⟩ := hM.outcome hx (hsound.inside i x hi ho).2 hp
    exact .inr ⟨c, hc, hid, houtcome⟩
  · exact .inl (hsound.outside i x hi ho).silent

/-- No plain rollback is reported over committed work, and where some have committed and others have
not the caller is told so, with one exception: nobody has confirmed a commit, and somebody who is
told to roll back has committed on its own. -/
theorem rollback_candid_iff (hM : M.Reachable) (hx : x ∈ M.requests) (hc : x.how = .commit)
    (hp : x.progress = .done t result) :
    Candid x.exchanges result ↔
      ¬((∃ e ∈ x.exchanges, e.defies = true) ∧ ∀ e ∈ x.exchanges, e.commits = false) := by
  rcases hM.silent_or_outcome hx hp with hsilent | ⟨c, -, -, houtcome⟩
  · rw [hsilent]
    exact iff_of_true (candid_nil result) (by simp)
  · rw [hc] at houtcome
    exact houtcome.accounts.candid_iff

/-- A commit of two participants has come to its end. -/
def paired (reply : (q : Question) → q.Answer) : Machine :=
  let begun := ((initial 0 0).operate (.addManager {} 0)).operate (.begin 0 none)
  let enlisted := (begun.operate (.enlist 0 { ref := 0, id := ⟨"a"⟩ })).operate
    (.enlist 0 { ref := 1, id := ⟨"b"⟩ })
  (answer reply 0)^[60] (enlisted.request .commit 0 0)

lemma reachable_paired (reply : (q : Question) → q.Answer) : (paired reply).Reachable :=
  ((((((reachable_initial 0 0).operate _).operate _).operate _).operate _).request ..).answers ..

/-- The second participant votes to roll back, but by then the first one has committed. -/
def hasty : Machine := paired fun
  | .prepare k _ => .ok (if k.ref = 1 then .rollback else .commit)
  | .rollback .. => .error .heuristicCommit
  | q => Dialogue.someAnswer q

theorem rollback_candid_iff_hasty :
    hasty.Reachable ∧ hasty.requests.length = 1 ∧ ∀ x ∈ hasty.requests,
      ¬Candid x.exchanges
        (.error (.rollback (hasty.system.tx 0).id (.votedRollback ⟨"b"⟩) none)) := by
  have hM : hasty.Reachable := reachable_paired _
  have hall : ∀ x ∈ hasty.requests, x.how = .commit ∧ x.progress.result? =
      some (.error (.rollback (hasty.system.tx 0).id (.votedRollback ⟨"b"⟩) none)) ∧
      (∃ e ∈ x.exchanges, e.defies = true) ∧ ∀ e ∈ x.exchanges, e.commits = false := by
    decide +kernel
  refine ⟨hM, by decide +kernel, fun x hx hcandid => ?_⟩
  obtain ⟨hhow, hresult, hhidden⟩ := hall x hx
  obtain ⟨t, hdone⟩ := Dialogue.exists_of_result? hresult
  exact (rollback_candid_iff hM hx hhow hdone).mp hcandid hhidden

/-- Committed work can be hidden. -/
theorem not_candid :
    ¬∀ (M : Machine) (x : Request) (t : System) (result : Except TxError Unit),
      M.Reachable → x ∈ M.requests → x.how = .commit → x.progress = .done t result →
      Candid x.exchanges result := by
  intro h
  have hall : ∀ x ∈ hasty.requests, x.how = .commit ∧ x.progress.result? =
      some (.error (.rollback (hasty.system.tx 0).id (.votedRollback ⟨"b"⟩) none)) ∧
      ∃ e ∈ x.exchanges, e.defies = true := by
    decide +kernel
  obtain ⟨x, hx⟩ : ∃ x, x ∈ hasty.requests :=
    List.exists_mem_of_length_pos (by decide +kernel)
  obtain ⟨hhow, hresult, e, he, hdefies⟩ := hall x hx
  obtain ⟨t, hdone⟩ := Dialogue.exists_of_result? hresult
  have hcandid := h hasty x t _ (reachable_paired _) hx hhow hdone
  rw [(hcandid.rollback _ _ _ rfl e he).2] at hdefies
  cases hdefies

/-- That everybody has rolled back is reported of those only who did, with one exception: nobody has
confirmed the commit, and somebody who was told of it is still prepared. Whoever is still prepared
then is pending in the log, as part of a commit. -/
theorem reversal_genuine_iff (hM : M.Reachable) (hx : x ∈ M.requests) (hc : x.how = .commit)
    (hp : x.progress = .done t result) :
    (Genuine x.exchanges result ↔
      ¬(stalled x.exchanges ≠ [] ∧ ∀ e ∈ x.exchanges, e.commits = false)) ∧
    ∀ id ∈ stalled x.exchanges, written x.exchanges ≠ [] ∧
      ∀ r ∈ written x.exchanges, r.decision = .committed ∧ id ∈ r.pending := by
  rcases hM.silent_or_outcome hx hp with hsilent | ⟨c, -, -, houtcome⟩
  · rw [hsilent]
    exact ⟨iff_of_true (genuine_nil result) (by simp [stalled]), by simp [stalled]⟩
  · rw [hc] at houtcome
    exact ⟨houtcome.accounts.genuine_iff, fun id hid => houtcome.pending hid⟩

/-- Both participants have voted to commit, and cannot be reached any more. -/
def cutOff : Machine := paired fun
  | .commit .. => .error (.unavailable "later")
  | q => Dialogue.someAnswer q

theorem reversal_genuine_iff_cutOff :
    cutOff.Reachable ∧ cutOff.requests.length = 1 ∧ ∀ x ∈ cutOff.requests,
      ¬Genuine x.exchanges (.error (.heuristicRollback (cutOff.system.tx 0).id
        [⟨⟨"a"⟩, .unavailable "later"⟩, ⟨⟨"b"⟩, .unavailable "later"⟩])) ∧
      written x.exchanges ≠ [] ∧ ∀ r ∈ written x.exchanges,
        r.decision = .committed ∧ ⟨"a"⟩ ∈ r.pending := by
  have hM : cutOff.Reachable := reachable_paired _
  have hall : ∀ x ∈ cutOff.requests, x.how = .commit ∧ x.progress.result? =
      some (.error (.heuristicRollback (cutOff.system.tx 0).id
        [⟨⟨"a"⟩, .unavailable "later"⟩, ⟨⟨"b"⟩, .unavailable "later"⟩])) ∧
      stalled x.exchanges = [⟨"a"⟩, ⟨"b"⟩] ∧ ∀ e ∈ x.exchanges, e.commits = false := by
    decide +kernel
  refine ⟨hM, by decide +kernel, fun x hx => ?_⟩
  obtain ⟨hhow, hresult, hstalled, hnone⟩ := hall x hx
  obtain ⟨t, hdone⟩ := Dialogue.exists_of_result? hresult
  obtain ⟨hiff, hpending⟩ := reversal_genuine_iff hM hx hhow hdone
  refine ⟨fun hgenuine => hiff.mp hgenuine ⟨?_, hnone⟩, hpending _ ?_⟩
  · simp [hstalled]
  · simp [hstalled]

/-- It can be reported of participants that are still prepared that they have rolled back. -/
theorem not_genuine :
    ¬∀ (M : Machine) (x : Request) (t : System) (result : Except TxError Unit),
      M.Reachable → x ∈ M.requests → x.how = .commit → x.progress = .done t result →
      Genuine x.exchanges result := by
  intro h
  have hall : ∀ x ∈ cutOff.requests, x.how = .commit ∧ x.progress.result? =
      some (.error (.heuristicRollback (cutOff.system.tx 0).id
        [⟨⟨"a"⟩, .unavailable "later"⟩, ⟨⟨"b"⟩, .unavailable "later"⟩])) ∧
      stalled x.exchanges ≠ [] := by
    decide +kernel
  obtain ⟨x, hx⟩ : ∃ x, x ∈ cutOff.requests :=
    List.exists_mem_of_length_pos (by decide +kernel)
  obtain ⟨hhow, hresult, hstalled⟩ := hall x hx
  obtain ⟨t, hdone⟩ := Dialogue.exists_of_result? hresult
  exact (h cutOff x t _ (reachable_paired _) hx hhow hdone).prepared hstalled _ _ rfl

end Machine

end TwoPhaseCommit
