import TwoPhaseCommit.Coordinator.Completion
import TwoPhaseCommit.Proofs.Dialogue

/-!
# The courses of a completion

What a completion says from beginning to end, and what it answers, whatever it is told. There is one
relation for each procedure, with one rule for each way that the procedure may take; the lemmas
`says_*` show that there are no other ways. Callbacks that are told the outcome and turns of other
tasks come in wherever they may.
-/

namespace TwoPhaseCommit

namespace Completion

variable {c : Completion} {es : List Exchange}

/-! ### Exchanges -/

/-- A participant is asked for its vote. -/
def ballot (c : Completion) (p : Participant) (a : Except ResourceError Vote) : Exchange :=
  ⟨.prepare p.adapter c.id, a⟩

/-- A participant is told to commit. -/
def committing (c : Completion) (onePhase : Bool) (p : Participant) (a : Except ResourceError Unit) :
    Exchange :=
  ⟨.commit p.adapter c.id onePhase, a⟩

/-- A participant is told to roll back. -/
def rollingBack (c : Completion) (p : Participant) (a : Except ResourceError Unit) : Exchange :=
  ⟨.rollback p.adapter c.id, a⟩

/-- A record of the transaction is appended to the log. -/
def recording (c : Completion) (d : Decision) (pending : List ResourceId) (time : UInt64)
    (a : Except StorageError Unit) : Exchange :=
  ⟨.append c.log ⟨c.id, d, pending, time⟩, a⟩

/-! ### Relations -/

/-- Participants are told something one after the other. The failures are of those that did not
confirm it, by success or by having done it on their own. -/
inductive Tells (tell : Participant → Except ResourceError Unit → Exchange) (own : ResourceError) :
    List Participant → List Exchange → List HeuristicFailure → Prop
  | nil : Tells tell own [] [] []
  | confirmed {p : Participant} {ps : List Participant} {a : Except ResourceError Unit}
      {es : List Exchange} {fs : List HeuristicFailure} (ha : a = .ok () ∨ a = .error own)
      (h : Tells tell own ps es fs) : Tells tell own (p :: ps) (tell p a :: es) fs
  | failed {p : Participant} {ps : List Participant} {e : ResourceError} {es : List Exchange}
      {fs : List HeuristicFailure} (he : e ≠ own) (h : Tells tell own ps es fs) :
    Tells tell own (p :: ps) (tell p (.error e) :: es) (⟨p.id, e⟩ :: fs)

/-- Callbacks are told the outcome. -/
def Notifies (outcome : Status) (es : List Exchange) : Prop :=
  ∃ xs : List Synchronization, es.map (·.question) = xs.map fun x => .afterCompletion x outcome

/-- Participants are told to roll back, and that is the end. -/
def RollsBack (c : Completion) (targets : List Participant) (es : List Exchange)
    (fs : List HeuristicFailure) : Prop :=
  ∃ es₁ time a es₂, Tells c.rollingBack .heuristicRollback targets es₁ fs ∧
    Notifies .rolledBack es₂ ∧
    es = es₁ ++ c.recording .rolledBack (fs.map (·.resource)) time a :: es₂

/-- The vote, from where some have voted to commit and some have not voted. -/
inductive Votes (c : Completion) (lastAgent : Option Participant) :
    List Participant → List Participant → List Exchange → Except TxError (List Participant) → Prop
  | all {prepared : List Participant} : Votes c lastAgent prepared [] [] (.ok prepared)
  | marked {prepared ps : List Participant} {p : Participant} {es : List Exchange}
      {fs : List HeuristicFailure} (reason : RollbackReason)
      (h : RollsBack c (prepared ++ p :: ps ++ lastAgent.toList) es fs) :
    Votes c lastAgent prepared (p :: ps) es (.error (.rollback c.id reason none))
  | commit {prepared ps : List Participant} {p : Participant} {es : List Exchange}
      {x : Except TxError (List Participant)} (h : Votes c lastAgent (prepared ++ [p]) ps es x) :
    Votes c lastAgent prepared (p :: ps) (c.ballot p (.ok .commit) :: es) x
  | readOnly {prepared ps : List Participant} {p : Participant} {es : List Exchange}
      {x : Except TxError (List Participant)} (h : Votes c lastAgent prepared ps es x) :
    Votes c lastAgent prepared (p :: ps) (c.ballot p (.ok .readOnly) :: es) x
  | rollback {prepared ps : List Participant} {p : Participant} {es : List Exchange}
      {fs : List HeuristicFailure} (h : RollsBack c (prepared ++ ps ++ lastAgent.toList) es fs) :
    Votes c lastAgent prepared (p :: ps) (c.ballot p (.ok .rollback) :: es)
      (.error (.rollback c.id (.votedRollback p.id) none))
  | failed {prepared ps : List Participant} {p : Participant} {es : List Exchange}
      {fs : List HeuristicFailure} (e : ResourceError)
      (h : RollsBack c (prepared ++ p :: ps ++ lastAgent.toList) es fs) :
    Votes c lastAgent prepared (p :: ps) (c.ballot p (.error e) :: es)
      (.error (.rollback c.id (.prepareFailed p.id) (some e)))

/-- The last agent, if there is one, decides. -/
inductive Decides (c : Completion) (prepared : List Participant) :
    Option Participant → List Exchange → Except TxError Unit → Prop
  | nobody : Decides c prepared none [] (.ok ())
  | commit {p : Participant} {a : Except ResourceError Unit}
      (ha : a = .ok () ∨ a = .error .heuristicCommit) :
    Decides c prepared (some p) [c.committing true p a] (.ok ())
  | mixed {p : Participant} {es : List Exchange} {fs : List HeuristicFailure}
      (h : RollsBack c prepared es fs) :
    Decides c prepared (some p) (c.committing true p (.error .heuristicMixed) :: es)
      (.error (.heuristicMixed c.id (⟨p.id, .heuristicMixed⟩ :: fs)))
  | failed {p : Participant} {e : ResourceError} {es : List Exchange} {fs : List HeuristicFailure}
      (he : e ≠ .heuristicCommit) (he' : e ≠ .heuristicMixed) (h : RollsBack c prepared es fs) :
    Decides c prepared (some p) (c.committing true p (.error e) :: es)
      (.error (.rollback c.id (.lastAgentFailed p.id) (some e)))

/-- What is reported of a decision that could not be written. -/
def unwritten (c : Completion) (e : StorageError) : Option Participant → TxError
  | some p => .heuristicMixed c.id [⟨p.id, .heuristicCommit⟩]
  | none => .rollback c.id (.decisionNotWritten e) none

/-- What is reported of a decision that was carried out. -/
def report (c : Completion) (lastAgent : Option Participant) (prepared : List Participant)
    (fs : List HeuristicFailure) : Except TxError Unit :=
  if fs.isEmpty then .ok () else .error (c.divergence lastAgent prepared fs)

/-- The decision to commit is written and carried out. -/
inductive CarriesOut (c : Completion) (lastAgent : Option Participant) (prepared : List Participant) :
    List Exchange → Except TxError Unit → Prop
  | unwritten {es : List Exchange} {fs : List HeuristicFailure} (time : UInt64) (e : StorageError)
      (h : RollsBack c prepared es fs) :
    CarriesOut c lastAgent prepared
      (c.recording .committed (prepared.map (·.id)) time (.error e) :: es)
      (.error (c.unwritten e lastAgent))
  | nobody {es : List Exchange} (time : UInt64) (hp : prepared = []) (h : Notifies .committed es) :
    CarriesOut c lastAgent prepared
      (c.recording .committed (prepared.map (·.id)) time (.ok ()) :: es) (.ok ())
  | told {es₁ es₂ : List Exchange} {fs : List HeuristicFailure} (time time' : UInt64)
      (a : Except StorageError Unit) (hp : prepared ≠ [])
      (h₁ : Tells (c.committing false) .heuristicCommit prepared es₁ fs)
      (h₂ : Notifies .committed es₂) :
    CarriesOut c lastAgent prepared
      (c.recording .committed (prepared.map (·.id)) time (.ok ()) :: es₁ ++
        c.recording .committed (fs.map (·.resource)) time' a :: es₂)
      (c.report lastAgent prepared fs)

/-- A commit in two phases. -/
inductive TwoPhase (c : Completion) (participants : List Participant) :
    List Exchange → Except TxError Unit → Prop
  | lost {es : List Exchange} {e : TxError}
      (h : Votes c (participants.find? (!·.twoPhase)) [] (participants.filter (·.twoPhase)) es
        (.error e)) : TwoPhase c participants es (.error e)
  | marked {es₁ es₂ : List Exchange} {prepared : List Participant} {fs : List HeuristicFailure}
      (reason : RollbackReason)
      (h₁ : Votes c (participants.find? (!·.twoPhase)) [] (participants.filter (·.twoPhase)) es₁
        (.ok prepared))
      (h₂ : RollsBack c (prepared ++ (participants.find? (!·.twoPhase)).toList) es₂ fs) :
    TwoPhase c participants (es₁ ++ es₂) (.error (.rollback c.id reason none))
  | refused {es₁ es₂ : List Exchange} {prepared : List Participant} {e : TxError}
      (h₁ : Votes c (participants.find? (!·.twoPhase)) [] (participants.filter (·.twoPhase)) es₁
        (.ok prepared))
      (h₂ : Decides c prepared (participants.find? (!·.twoPhase)) es₂ (.error e)) :
    TwoPhase c participants (es₁ ++ es₂) (.error e)
  | decided {es₁ es₂ es₃ : List Exchange} {prepared : List Participant} {x : Except TxError Unit}
      (h₁ : Votes c (participants.find? (!·.twoPhase)) [] (participants.filter (·.twoPhase)) es₁
        (.ok prepared))
      (h₂ : Decides c prepared (participants.find? (!·.twoPhase)) es₂ (.ok ()))
      (h₃ : CarriesOut c (participants.find? (!·.twoPhase)) prepared es₃ x) :
    TwoPhase c participants (es₁ ++ (es₂ ++ es₃)) x

/-! ### There are no other ways -/

lemma quiet_locked {α : Type} (c : Completion) (f : Transaction → α × Transaction) :
    (c.locked f).Quiet :=
  Proc.quiet_turn.bind fun _ => Proc.quiet_step _

lemma quiet_update (c : Completion) (f : Transaction → Transaction) : (c.update f).Quiet :=
  Proc.quiet_turn.bind fun _ => Proc.quiet_change _

lemma quiet_current (c : Completion) : c.current.Quiet :=
  Proc.quiet_turn.bind fun _ => Proc.quiet_view _

lemma quiet_setStatus (c : Completion) (s : Status) : (c.setStatus s).Quiet := quiet_update c _

lemma quiet_setResourceStatus (c : Completion) (p : Participant) (s : ResourceStatus) :
    (c.setResourceStatus p s).Quiet :=
  quiet_update c _

lemma quiet_countHeuristic (c : Completion) : c.countHeuristic.Quiet :=
  Proc.quiet_turn.bind fun _ => Proc.quiet_change _

lemma says_recordOutcome {d : Decision} {pending : List ResourceId} {u : Unit}
    (h : (c.recordOutcome d pending).Says es u) : ∃ time a, es = [c.recording d pending time a] := by
  obtain ⟨time, h⟩ := h.beyond (Proc.quiet_view _)
  obtain ⟨a, h⟩ := h.discard
  exact ⟨time, a, Proc.says_ask h⟩

lemma says_notify {outcome : Status} {xs : List Synchronization} {u : Unit}
    (h : (notify outcome xs).Says es u) :
    es.map (·.question) = xs.map fun x => .afterCompletion x outcome := by
  induction xs generalizing es u with
  | nil =>
    obtain ⟨rfl, -⟩ := Proc.says_pure h
    rfl
  | cons x xs ih =>
    obtain ⟨es₁, _, es₂, h₁, h₂, rfl⟩ := h.bind
    obtain ⟨a, h₁⟩ := h₁.discard
    have he : es₁ = [⟨.afterCompletion x outcome, a⟩] := Proc.says_ask h₁
    rw [he, List.map_append, ih h₂]
    rfl

lemma says_finish {outcome : Status} {u : Unit} (h : (c.finish outcome).Says es u) :
    Notifies outcome es := by
  obtain ⟨order, h⟩ := h.beyond (quiet_locked c _)
  obtain ⟨_, h⟩ := h.beyond Proc.quiet_turn
  obtain ⟨_, h⟩ := h.beyond (Proc.quiet_change _)
  exact ⟨order, says_notify h⟩

lemma says_runBefore {xs : List Synchronization} {u : Unit} (h : (c.runBefore xs).Says es u) :
    ∀ e ∈ es, ∃ x, e.question = .beforeCompletion x := by
  induction xs generalizing es u with
  | nil =>
    obtain ⟨rfl, -⟩ := Proc.says_pure h
    simp
  | cons x xs ih =>
    obtain ⟨a, es, ha, rfl⟩ := h.after (by simp)
    refine List.forall_mem_cons.mpr ⟨⟨x, rfl⟩, ?_⟩
    split at ha
    next => exact ih ha
    next =>
      rw [quiet_update c _ _ _ ha]
      simp

lemma failure?_eq_none_iff {own : ResourceError} {a : Except ResourceError Unit} :
    failure? own a = none ↔ a = .ok () ∨ a = .error own := by
  cases a <;> simp [failure?]

lemma failure?_eq_some_iff {own e : ResourceError} {a : Except ResourceError Unit} :
    failure? own a = some e ↔ a = .error e ∧ e ≠ own := by
  cases a with
  | ok => simp [failure?]
  | error e' =>
    rw [failure?, ite_eq_iff]
    constructor
    · rintro (⟨-, ⟨⟩⟩ | ⟨h, ⟨⟩⟩)
      exact ⟨rfl, h⟩
    · rintro ⟨⟨⟩, h⟩
      exact .inr ⟨h, rfl⟩

lemma says_tellEach {call : Participant → Proc (Except ResourceError Unit)}
    {tell : Participant → Except ResourceError Unit → Exchange} {own : ResourceError}
    {reached : ResourceStatus} (hcall : ∀ p es a, (call p).Says es a → es = [tell p a])
    {targets : List Participant} {fs : List HeuristicFailure}
    (h : (c.tellEach call own reached targets).Says es fs) : Tells tell own targets es fs := by
  induction targets generalizing es fs with
  | nil =>
    obtain ⟨rfl, rfl⟩ := Proc.says_pure h
    exact .nil
  | cons p ps ih =>
    obtain ⟨es₁, a, es₂, h₁, ha, rfl⟩ := h.bind
    obtain rfl := hcall p es₁ a h₁
    split at ha
    next hown =>
      obtain ⟨_, ha⟩ := ha.beyond (quiet_setResourceStatus c p _)
      exact .confirmed (failure?_eq_none_iff.mp hown) (ih ha)
    next e he =>
      obtain ⟨rfl, hne⟩ := failure?_eq_some_iff.mp he
      obtain ⟨_, ha⟩ := ha.beyond (quiet_setResourceStatus c p _)
      obtain ⟨es₃, fs, es₄, h₃, h₄, rfl⟩ := ha.bind
      obtain ⟨rfl, rfl⟩ := Proc.says_pure h₄
      rw [List.append_nil]
      exact .failed hne (ih h₃)

lemma says_rollbackEach {targets : List Participant} {fs : List HeuristicFailure}
    (h : (c.rollbackEach targets).Says es fs) :
    Tells c.rollingBack .heuristicRollback targets es fs :=
  says_tellEach (fun _ _ _ h => Proc.says_ask h) h

lemma says_commitEach {targets : List Participant} {fs : List HeuristicFailure}
    (h : (c.commitEach targets).Says es fs) :
    Tells (c.committing false) .heuristicCommit targets es fs :=
  says_tellEach (fun _ _ _ h => Proc.says_ask h) h

lemma says_rollBackAt {targets : List Participant} {fs : List HeuristicFailure}
    (h : (c.rollBackAt targets).Says es fs) : RollsBack c targets es fs := by
  obtain ⟨es₁, fs', es₂, h₁, hfrom₂, rfl⟩ := h.bind
  obtain ⟨es₂, _, es₃, h₂, hfrom₃, rfl⟩ := hfrom₂.bind
  obtain ⟨es₃, _, es₄, h₃, hfrom₄, rfl⟩ := hfrom₃.bind
  obtain ⟨rfl, rfl⟩ := Proc.says_pure hfrom₄
  obtain ⟨time, a, rfl⟩ := says_recordOutcome h₂
  refine ⟨es₁, time, a, es₃, says_rollbackEach h₁, says_finish h₃, ?_⟩
  rw [List.append_nil]
  rfl

lemma says_rollBack {targets : List Participant} {fs : List HeuristicFailure}
    (h : (c.rollBack targets).Says es fs) : RollsBack c targets es fs := by
  obtain ⟨_, h⟩ := h.beyond (quiet_setStatus c _)
  exact says_rollBackAt h

lemma says_abort {targets : List Participant} {reason : RollbackReason}
    {cause : Option ResourceError} {e : TxError} (h : (c.abort targets reason cause).Says es e) :
    ∃ fs, RollsBack c targets es fs ∧ e = .rollback c.id reason cause := by
  obtain ⟨es₁, _, es₂, h₁, h₂, rfl⟩ := h.bind
  obtain ⟨fs, h₁⟩ := h₁.discard
  obtain ⟨rfl, rfl⟩ := Proc.says_pure h₂
  rw [List.append_nil]
  exact ⟨fs, says_rollBack h₁, rfl⟩

lemma says_aborted {α : Type} {targets : List Participant} {reason : RollbackReason}
    {cause : Option ResourceError} {x : Except TxError α}
    (h : (Except.error <$> c.abort targets reason cause : Proc (Except TxError α)).Says es x) :
    ∃ fs, RollsBack c targets es fs ∧ x = .error (.rollback c.id reason cause) := by
  obtain ⟨e, he, rfl⟩ := h.map
  obtain ⟨fs, hfs, rfl⟩ := says_abort he
  exact ⟨fs, hfs, rfl⟩

lemma says_collectVotes {lastAgent : Option Participant} {prepared unvoted : List Participant}
    {x : Except TxError (List Participant)}
    (h : (c.collectVotes lastAgent prepared unvoted).Says es x) :
    Votes c lastAgent prepared unvoted es x := by
  induction unvoted generalizing prepared es x with
  | nil =>
    obtain ⟨rfl, rfl⟩ := Proc.says_pure h
    exact .all
  | cons p ps ih =>
    obtain ⟨t, h⟩ := h.beyond (quiet_current c)
    split at h
    -- a mark that was left meanwhile ends the vote
    next reason _ =>
      obtain ⟨fs, hfs, rfl⟩ := says_aborted h
      exact .marked reason hfs
    next =>
      obtain ⟨a, es, ha, rfl⟩ := h.after (by simp)
      split at ha
      next =>
        obtain ⟨_, ha⟩ := ha.beyond (quiet_setResourceStatus c p _)
        exact .commit (ih ha)
      next =>
        obtain ⟨_, ha⟩ := ha.beyond (quiet_setResourceStatus c p _)
        exact .readOnly (ih ha)
      next =>
        obtain ⟨_, ha⟩ := ha.beyond (quiet_setResourceStatus c p _)
        obtain ⟨fs, hfs, rfl⟩ := says_aborted ha
        exact .rollback hfs
      next e _ =>
        obtain ⟨_, ha⟩ := ha.beyond (quiet_setResourceStatus c p _)
        obtain ⟨fs, hfs, rfl⟩ := says_aborted ha
        exact .failed e hfs

lemma says_commitLastAgent {prepared : List Participant} {lastAgent : Option Participant}
    {x : Except TxError Unit} (h : (c.commitLastAgent prepared lastAgent).Says es x) :
    Decides c prepared lastAgent es x := by
  cases lastAgent with
  | none =>
    obtain ⟨rfl, rfl⟩ := Proc.says_pure h
    exact .nobody
  | some p =>
    obtain ⟨a, es, ha, rfl⟩ := h.after (by simp)
    split at ha
    next =>
      obtain ⟨_, ha⟩ := ha.beyond (quiet_setResourceStatus c p _)
      obtain ⟨rfl, rfl⟩ := Proc.says_pure ha
      exact .commit (.inl rfl)
    next =>
      obtain ⟨_, ha⟩ := ha.beyond (quiet_setResourceStatus c p _)
      obtain ⟨rfl, rfl⟩ := Proc.says_pure ha
      exact .commit (.inr rfl)
    next =>
      obtain ⟨_, ha⟩ := ha.beyond (quiet_setResourceStatus c p _)
      obtain ⟨es₁, fs, es₂, h₁, h₂, rfl⟩ := ha.bind
      obtain ⟨_, h₂⟩ := h₂.beyond (quiet_countHeuristic c)
      obtain ⟨rfl, rfl⟩ := Proc.says_pure h₂
      rw [List.append_nil]
      exact .mixed (says_rollBack h₁)
    next e he he' =>
      obtain ⟨_, ha⟩ := ha.beyond (quiet_setResourceStatus c p _)
      obtain ⟨fs, hfs, rfl⟩ := says_aborted ha
      refine .failed ?_ ?_ hfs
      · rintro rfl
        exact he rfl
      · rintro rfl
        exact he' rfl

lemma says_abortUnwritten {prepared : List Participant} {lastAgent : Option Participant}
    {e : StorageError} {x : TxError} (h : (c.abortUnwritten prepared lastAgent e).Says es x) :
    ∃ fs, RollsBack c prepared es fs ∧ x = c.unwritten e lastAgent := by
  obtain ⟨es₁, _, es₂, h₁, h₂, rfl⟩ := h.bind
  obtain ⟨fs, h₁⟩ := h₁.discard
  refine ⟨fs, ?_⟩
  cases lastAgent with
  | none =>
    obtain ⟨rfl, rfl⟩ := Proc.says_pure h₂
    rw [List.append_nil]
    exact ⟨says_rollBack h₁, rfl⟩
  | some p =>
    obtain ⟨_, h₂⟩ := h₂.beyond (quiet_countHeuristic c)
    obtain ⟨rfl, rfl⟩ := Proc.says_pure h₂
    rw [List.append_nil]
    exact ⟨says_rollBack h₁, rfl⟩

lemma says_carryOut {lastAgent : Option Participant} {prepared : List Participant}
    {x : Except TxError Unit} (h : (c.carryOut lastAgent prepared).Says es x) :
    CarriesOut c lastAgent prepared es x := by
  obtain ⟨time, h⟩ := h.beyond (Proc.quiet_view _)
  obtain ⟨a, es, ha, rfl⟩ := h.after (by simp)
  split at ha
  next e _ =>
    obtain ⟨e', he, rfl⟩ := ha.map
    obtain ⟨fs, hfs, rfl⟩ := says_abortUnwritten he
    exact .unwritten time e hfs
  next =>
    split at ha
    next hp =>
      obtain ⟨es₁, _, es₂, h₁, h₂, rfl⟩ := ha.bind
      obtain ⟨rfl, rfl⟩ := Proc.says_pure h₂
      rw [List.append_nil]
      exact .nobody time (List.isEmpty_iff.mp hp) (says_finish h₁)
    next hp =>
      obtain ⟨_, ha⟩ := ha.beyond (quiet_setStatus c _)
      obtain ⟨es₁, fs, es₂, h₁, hfrom₂, rfl⟩ := ha.bind
      obtain ⟨es₂, _, es₃, h₂, hfrom₃, rfl⟩ := hfrom₂.bind
      obtain ⟨es₃, _, es₄, h₃, hfrom₄, rfl⟩ := hfrom₃.bind
      obtain ⟨time', a, rfl⟩ := says_recordOutcome h₂
      have hp' : prepared ≠ [] := fun hp' => hp (List.isEmpty_iff.mpr hp')
      -- to count a divergence says nothing
      have hreport : es₄ = [] ∧ x = c.report lastAgent prepared fs := by
        unfold report
        split at hfrom₄
        next hfs =>
          rw [if_pos hfs]
          exact Proc.says_pure hfrom₄
        next hfs =>
          rw [if_neg hfs]
          obtain ⟨_, hfrom₄⟩ := hfrom₄.beyond (quiet_countHeuristic c)
          exact Proc.says_pure hfrom₄
      obtain ⟨rfl, rfl⟩ := hreport
      rw [List.append_nil]
      exact .told time time' a hp' (says_commitEach h₁) (says_finish h₃)

lemma says_commitTwoPhase {participants : List Participant} {x : Except TxError Unit}
    (h : (c.commitTwoPhase participants).Says es x) : TwoPhase c participants es x := by
  obtain ⟨es₁, votes, es₂, h₁, hrest, rfl⟩ := h.bind
  have hvotes := says_collectVotes h₁
  cases votes with
  | error e =>
    obtain ⟨rfl, rfl⟩ := Proc.says_pure hrest
    rw [List.append_nil]
    exact .lost hvotes
  | ok prepared =>
    obtain ⟨marked, hrest⟩ := hrest.beyond (quiet_locked c _)
    cases marked with
    | some reason =>
      obtain ⟨fs, hfs, rfl⟩ := says_aborted hrest
      exact .marked reason hvotes hfs
    | none =>
      obtain ⟨es₂, y, es₃, h₂, hfrom₃, rfl⟩ := hrest.bind
      have hdecides := says_commitLastAgent h₂
      cases y with
      | error e =>
        obtain ⟨rfl, rfl⟩ := Proc.says_pure hfrom₃
        rw [List.append_nil]
        exact .refused hvotes hdecides
      | ok _ => exact .decided hvotes hdecides (says_carryOut hfrom₃)

end Completion

end TwoPhaseCommit
