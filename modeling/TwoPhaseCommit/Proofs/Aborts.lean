import Mathlib.Data.List.Pairwise
import TwoPhaseCommit.Proofs.Enlistment
import TwoPhaseCommit.Proofs.Ledger
import TwoPhaseCommit.Proofs.Marks

/-!
# Everybody hears of an abort

Who is called when a transaction is rolled back, and in which order. Without a vote that is
everybody who was enlisted. When the vote is lost it is everybody who may hold work, which leaves
out those who have finished with a vote of their own. And when the decision fails after the vote it
is those who agreed.
-/

namespace TwoPhaseCommit

open Completion (Outcome Polled)

/-! ### Who was asked, and who answered what -/

/-- The participant that was asked for its vote. -/
def Exchange.voter? : Exchange → Option AdapterKey
  | ⟨.prepare k _, _⟩ => some k
  | _ => none

/-- A vote to commit. -/
def Exchange.agrees : Exchange → Bool
  | ⟨.prepare .., .ok .commit⟩ => true
  | _ => false

/-- The failure to vote. -/
def Exchange.fails : Exchange → Bool
  | ⟨.prepare .., .error _⟩ => true
  | _ => false

/-- A vote to roll back, or the failure to vote. -/
def Exchange.refuses : Exchange → Bool
  | ⟨.prepare .., .ok .rollback⟩ => true
  | ⟨.prepare .., .error _⟩ => true
  | _ => false

/-- Those who were asked for their votes, in order. -/
def asked (es : List Exchange) : List AdapterKey := es.filterMap (·.voter?)

/-- Those who voted to commit, in order. -/
def agreed (es : List Exchange) : List AdapterKey := asked (es.filter (·.agrees))

/-- Those who failed to vote, in order. -/
def unready (es : List Exchange) : List AdapterKey := asked (es.filter (·.fails))

/-- The last agent does not commit. Who has committed on its own accord has committed. -/
def Exchange.deserts : Exchange → Bool
  | ⟨.commit k _ true, .error e⟩ => !k.twoPhase && e ≠ .heuristicCommit
  | _ => false

/-- That a commit was decided is not written. -/
structure Unrecorded (es : List Exchange) : Prop where
  lost : ∃ e ∈ es, e.failsToWrite = true ∧ e.question.advances = true
  unwritten : ∀ r ∈ written es, r.decision ≠ .committed

/-- The participant that is called. -/
def Question.callee? : Question → Option AdapterKey
  | prepare k _ | commit k _ _ | rollback k _ => some k
  | _ => none

section Voters

variable {es es₁ es₂ : List Exchange}

@[simp] lemma asked_append (es₁ es₂ : List Exchange) :
    asked (es₁ ++ es₂) = asked es₁ ++ asked es₂ :=
  List.filterMap_append

@[simp] lemma agreed_append (es₁ es₂ : List Exchange) :
    agreed (es₁ ++ es₂) = agreed es₁ ++ agreed es₂ := by
  simp [agreed]

@[simp] lemma unready_append (es₁ es₂ : List Exchange) :
    unready (es₁ ++ es₂) = unready es₁ ++ unready es₂ := by
  simp [unready]

lemma agreed_sublist (es : List Exchange) : (agreed es).Sublist (asked es) :=
  (List.filter_sublist ..).filterMap _

/-- Where nobody is asked nobody votes. -/
structure Unpolling (es : List Exchange) : Prop where
  asked : asked es = []
  agreed : agreed es = []
  unready : unready es = []
  content : ∀ e ∈ es, e.refuses = false

lemma unpolling_of_forall (h : ∀ e ∈ es, ∀ k i, e.question ≠ .prepare k i) : Unpolling es := by
  have hnone : ∀ e ∈ es, e.voter? = none ∧ e.refuses = false := by
    rintro ⟨q, a⟩ he
    cases q with
    | prepare k i => exact absurd rfl (h _ he k i)
    | _ => exact ⟨rfl, rfl⟩
  have hfilter : ∀ f, asked (es.filter f) = [] := fun f =>
    List.filterMap_eq_nil_iff.mpr fun e he => (hnone e (List.mem_of_mem_filter he)).1
  exact ⟨List.filterMap_eq_nil_iff.mpr fun e he => (hnone e he).1, hfilter _, hfilter _,
    fun e he => (hnone e he).2⟩

lemma Unpolling.append (h₁ : Unpolling es₁) (h₂ : Unpolling es₂) : Unpolling (es₁ ++ es₂) where
  asked := by rw [asked_append, h₁.asked, h₂.asked, List.append_nil]
  agreed := by rw [agreed_append, h₁.agreed, h₂.agreed, List.append_nil]
  unready := by rw [unready_append, h₁.unready, h₂.unready, List.append_nil]
  content := List.forall_mem_append.mpr ⟨h₁.content, h₂.content⟩

/-- Whoever was asked once has given one answer. -/
lemma eq_of_asked (hd : (asked es).Nodup) {e e' : Exchange} (he : e ∈ es) (he' : e' ∈ es)
    {k : AdapterKey} (hk : e.voter? = some k) (hk' : e'.voter? = some k) : e = e' := by
  have : Std.Symm fun e e' : Exchange =>
      ∀ k, e.voter? = some k → ∀ k', e'.voter? = some k' → k ≠ k' :=
    ⟨fun _ _ h k hk k' hk' hkk => h k' hk' k hk hkk.symm⟩
  by_contra hne
  exact (List.pairwise_filterMap.mp hd).forall he he' hne k hk k hk' rfl

end Voters

/-! ### The ways to give up a commit -/

/-- All participants are told to roll back, each once and in order. -/
structure Undoes (id : TxId) (all : List AdapterKey) (es : List Exchange) : Prop where
  calls : calls es = all.map (.rollback · id)
  nodup : (TwoPhaseCommit.calls es).Nodup

/-- The vote is lost. Those who voted to commit are told to roll back, then who failed to vote and
those who were not asked, then the last agent. -/
structure GivesUp (id : TxId) (all : List AdapterKey) (es : List Exchange) : Prop where
  calls : ∃ unasked, all.filter (·.twoPhase) = asked es ++ unasked ∧
    calls es = (asked es).map (.prepare · id) ++
      (agreed es ++ unready es ++ unasked ++ (all.find? (!·.twoPhase)).toList).map (.rollback · id)
  nodup : (TwoPhaseCommit.calls es).Nodup
  /-- Whoever voted otherwise than to commit is not called again. -/
  finished : ∀ k v, ⟨.prepare k id, .ok v⟩ ∈ es → v ≠ .commit →
    ∀ q ∈ TwoPhaseCommit.calls es, q.callee? = some k → q = .prepare k id

/-- The vote is won, and the last agent or the log fails. Those who voted to commit are told to roll
back. -/
structure TakesBack (id : TxId) (all : List AdapterKey) (es : List Exchange) : Prop where
  calls : calls es = (all.filter (·.twoPhase)).map (.prepare · id) ++
    (all.find? (!·.twoPhase)).toList.map (.commit · id true) ++ (agreed es).map (.rollback · id)
  nodup : (TwoPhaseCommit.calls es).Nodup
  /-- The last agent is not called again. -/
  finished : ∀ k, all.find? (!·.twoPhase) = some k →
    ∀ q ∈ TwoPhaseCommit.calls es, q.callee? = some k → q = .commit k id true

/-- What has no part in the outcome has none in whether the decision is written. -/
lemma unrecorded_append_iff {es₁ es₂ : List Exchange} (hn : Neutral es₁)
    (ha : ∀ e ∈ es₁, e.question.advances = false) : Unrecorded (es₁ ++ es₂) ↔ Unrecorded es₂ := by
  have hwritten : written (es₁ ++ es₂) = written es₂ := by
    rw [written_append, hn.written, List.nil_append]
  constructor
  · rintro ⟨⟨e, he, hf, hadv⟩, hun⟩
    refine ⟨⟨e, (List.mem_append.mp he).resolve_left fun he => ?_, hf, hadv⟩, hwritten ▸ hun⟩
    rw [ha e he] at hadv
    cases hadv
  · rintro ⟨⟨e, he, hf, hadv⟩, hun⟩
    exact ⟨⟨e, List.mem_append_right _ he, hf, hadv⟩, hwritten.symm ▸ hun⟩

section GivingUp

variable {id : TxId} {all : List AdapterKey} {es : List Exchange}

lemma undoes_of_calls (hd : all.Nodup) (h : calls es = all.map (.rollback · id)) :
    Undoes id all es := by
  refine ⟨h, ?_⟩
  rw [h]
  exact hd.map fun _ _ hk => (Question.rollback.inj hk).1

lemma givesUp_of_calls (unasked : List AdapterKey)
    (hd : (all.filter (·.twoPhase) ++ (all.find? (!·.twoPhase)).toList).Nodup)
    (htwo : all.filter (·.twoPhase) = asked es ++ unasked)
    (hs : (agreed es ++ unready es).Sublist (asked es))
    (h : calls es = (asked es).map (.prepare · id) ++
      (agreed es ++ unready es ++ unasked ++
        (all.find? (!·.twoPhase)).toList).map (.rollback · id)) :
    GivesUp id all es := by
  rw [htwo, List.append_assoc] at hd
  have htold : (agreed es ++ unready es ++ unasked ++ (all.find? (!·.twoPhase)).toList).Nodup := by
    rw [List.append_assoc]
    exact (hs.append_right _).nodup hd
  obtain ⟨hasked, -, hapart⟩ := List.nodup_append.mp hd
  refine ⟨⟨unasked, htwo, h⟩, ?_, fun k v he hv q hq hk => ?_⟩
  · rw [h]
    refine List.nodup_append.mpr ⟨hasked.map fun _ _ hk => (Question.prepare.inj hk).1,
      htold.map fun _ _ hk => (Question.rollback.inj hk).1, ?_⟩
    rintro _ hq _ hq' rfl
    obtain ⟨k, -, rfl⟩ := List.mem_map.mp hq
    obtain ⟨l, -, hl⟩ := List.mem_map.mp hq'
    cases hl
  · have hvoter : k ∈ asked es := List.mem_filterMap.mpr ⟨_, he, rfl⟩
    rw [h] at hq
    rcases List.mem_append.mp hq with hq | hq
    · obtain ⟨l, -, rfl⟩ := List.mem_map.mp hq
      cases hk
      rfl
    · obtain ⟨l, hl, rfl⟩ := List.mem_map.mp hq
      cases hk
      -- it would have answered otherwise, or have been asked twice
      rw [List.append_assoc] at hl
      rcases List.mem_append.mp hl with hl | hl
      · rcases List.mem_append.mp hl with hl | hl
        all_goals
          obtain ⟨e, hmem, hvoter'⟩ := List.mem_filterMap.mp hl
          obtain ⟨he', hanswer⟩ := List.mem_filter.mp hmem
          obtain rfl := eq_of_asked hasked he he' rfl hvoter'
        · cases v with
          | commit => exact absurd rfl hv
          | _ => cases hanswer
        · cases hanswer
      · exact absurd rfl (hapart k hvoter k hl)

lemma takesBack_of_calls (hd : (all.filter (·.twoPhase) ++ (all.find? (!·.twoPhase)).toList).Nodup)
    (hs : (agreed es).Sublist (all.filter (·.twoPhase)))
    (h : calls es = (all.filter (·.twoPhase)).map (.prepare · id) ++
      (all.find? (!·.twoPhase)).toList.map (.commit · id true) ++
      (agreed es).map (.rollback · id)) :
    TakesBack id all es := by
  obtain ⟨htwo, hlast, -⟩ := List.nodup_append.mp hd
  refine ⟨h, ?_, fun k hfind q hq hk => ?_⟩
  · rw [h]
    refine List.nodup_append.mpr ⟨List.nodup_append.mpr
      ⟨htwo.map fun _ _ hk => (Question.prepare.inj hk).1,
        hlast.map fun _ _ hk => (Question.commit.inj hk).1, ?_⟩,
      (hs.nodup htwo).map fun _ _ hk => (Question.rollback.inj hk).1, ?_⟩
    · rintro _ hq _ hq' rfl
      obtain ⟨k, -, rfl⟩ := List.mem_map.mp hq
      obtain ⟨l, -, hl⟩ := List.mem_map.mp hq'
      cases hl
    · rintro _ hq _ hq' rfl
      obtain ⟨k, -, rfl⟩ := List.mem_map.mp hq'
      rcases List.mem_append.mp hq with hq | hq
      all_goals
        obtain ⟨l, -, hl⟩ := List.mem_map.mp hq
        cases hl
  · -- the last agent does not vote, and so it is not among those who agreed
    have hlast : k.twoPhase = false := by simpa using List.find?_some hfind
    have hnot : k ∉ all.filter (·.twoPhase) := by simp [hlast]
    rw [h] at hq
    rcases List.mem_append.mp hq with hq | hq
    · rcases List.mem_append.mp hq with hq | hq
      · obtain ⟨l, hl, rfl⟩ := List.mem_map.mp hq
        cases hk
        exact absurd hl hnot
      · obtain ⟨l, -, rfl⟩ := List.mem_map.mp hq
        cases hk
        rfl
    · obtain ⟨l, hl, rfl⟩ := List.mem_map.mp hq
      cases hk
      exact absurd (hs.subset hl) hnot

/-- What is said before without a vote or a call does not matter. -/
lemma GivesUp.after {es₁ es₂ : List Exchange} (h : GivesUp id all es₂) (hu : Unpolling es₁)
    (hc : TwoPhaseCommit.calls es₁ = []) : GivesUp id all (es₁ ++ es₂) := by
  have ha : asked (es₁ ++ es₂) = asked es₂ := by simp [hu.asked]
  have hg : agreed (es₁ ++ es₂) = agreed es₂ := by simp [hu.agreed]
  have hn : unready (es₁ ++ es₂) = unready es₂ := by simp [hu.unready]
  have hcalls : TwoPhaseCommit.calls (es₁ ++ es₂) = TwoPhaseCommit.calls es₂ := by simp [hc]
  refine ⟨?_, ?_, fun k v he => ?_⟩
  · rw [ha, hg, hn, hcalls]
    exact h.calls
  · rw [hcalls]
    exact h.nodup
  · rw [hcalls]
    refine h.finished k v ((List.mem_append.mp he).resolve_left fun he => ?_)
    have hnone := List.filterMap_eq_nil_iff.mp hu.asked _ he
    cases hnone

lemma TakesBack.after {es₁ es₂ : List Exchange} (h : TakesBack id all es₂) (hu : Unpolling es₁)
    (hc : TwoPhaseCommit.calls es₁ = []) : TakesBack id all (es₁ ++ es₂) := by
  have hg : agreed (es₁ ++ es₂) = agreed es₂ := by simp [hu.agreed]
  have hcalls : TwoPhaseCommit.calls (es₁ ++ es₂) = TwoPhaseCommit.calls es₂ := by simp [hc]
  refine ⟨?_, ?_, ?_⟩
  · rw [hg, hcalls]
    exact h.calls
  · rw [hcalls]
    exact h.nodup
  · rw [hcalls]
    exact h.finished

end GivingUp

/-! ### The course of a completion that is given up -/

namespace Completion

variable {c : Completion} {ps targets prepared unvoted told : List Participant} {p : Participant}
  {lastAgent : Option Participant} {es : List Exchange} {fs : List HeuristicFailure}

lemma filter_adapter (ps : List Participant) :
    (ps.map (·.adapter)).filter (·.twoPhase) = (ps.filter (·.twoPhase)).map (·.adapter) :=
  List.filter_map

lemma find_adapter (ps : List Participant) : ((ps.map (·.adapter)).find? (!·.twoPhase)).toList =
    (ps.find? (!·.twoPhase)).toList.map (·.adapter) := by
  rw [List.find?_map]
  change ((ps.find? (!·.twoPhase)).map (·.adapter)).toList = _
  cases ps.find? (!·.twoPhase) <;> rfl

lemma nodup_agents (hd : (ps.map (·.adapter)).Nodup) :
    ((ps.map (·.adapter)).filter (·.twoPhase) ++
      ((ps.map (·.adapter)).find? (!·.twoPhase)).toList).Nodup := by
  rw [filter_adapter, find_adapter, ← List.map_append]
  exact nodup_split hd

/-! #### Who was asked -/

@[simp] lemma asked_ballot (a : Except ResourceError Vote) :
    asked (c.ballot p a :: es) = p.adapter :: asked es := rfl

@[simp] lemma agreed_commit :
    agreed (c.ballot p (.ok .commit) :: es) = p.adapter :: agreed es := rfl

@[simp] lemma agreed_readOnly : agreed (c.ballot p (.ok .readOnly) :: es) = agreed es := rfl

@[simp] lemma agreed_rollback : agreed (c.ballot p (.ok .rollback) :: es) = agreed es := rfl

@[simp] lemma agreed_error (e : ResourceError) :
    agreed (c.ballot p (.error e) :: es) = agreed es := rfl

@[simp] lemma unready_ok (v : Vote) : unready (c.ballot p (.ok v) :: es) = unready es := rfl

@[simp] lemma unready_error (e : ResourceError) :
    unready (c.ballot p (.error e) :: es) = p.adapter :: unready es := rfl

@[simp] lemma calls_ballot (a : Except ResourceError Vote) :
    calls (c.ballot p a :: es) = .prepare p.adapter c.id :: calls es := calls_cons ..

lemma Settles.unpolling (h : Settles c told es) : Unpolling es := by
  refine unpolling_of_forall fun e he k i hq => ?_
  have hasked := (h.telling e he).asked i
  simp [hq, Question.asked?] at hasked

lemma Readies.unpolling (h : Readies es) : Unpolling es := by
  refine unpolling_of_forall fun e he k i hq => ?_
  obtain ⟨x, hx⟩ := h e he
  rw [hx] at hq
  cases hq

lemma RollsBack.unpolling (h : RollsBack c targets es fs) : Unpolling es := h.settles.unpolling

lemma Decides.unpolling {x : Except TxError Unit} (h : Decides c prepared lastAgent es x) :
    Unpolling es := by
  obtain ⟨last, rest, rfl, hs, -, ⟨-, rfl⟩ | ⟨-, fs, hr⟩⟩ := h.parts
  · rw [List.append_nil]
    exact hs.unpolling
  · exact (hs.append hr.settles).unpolling

lemma CarriesOut.unpolling {x : Except TxError Unit} (h : CarriesOut c lastAgent prepared es x) :
    Unpolling es :=
  h.concludes.settles.unpolling

lemma Direct.settles {x : Except TxError Unit} {status : Status} (h : Direct c ps es x status) :
    Settles c ps es := by
  have hrest : ∀ {outcome d es}, Notifies outcome es → ∀ time a,
      Settles c [] (c.recording d [] time a :: es) :=
    fun h time a => (settles_recording _ _ time a).append h.settles
  cases h with
  | nobody time a h => exact hrest h time a
  | committed time a _ h => exact (settles_committing true _ _).append (hrest h time a)
  | mixed time a h => exact (settles_committing true _ _).append (hrest h time a)
  | failed time a _ _ h => exact (settles_committing true _ _).append (hrest h time a)

/-! #### Who is called -/

lemma RollsBack.calls_eq (h : RollsBack c targets es fs) :
    TwoPhaseCommit.calls es = (targets.map (·.adapter)).map c.undoing := by
  rw [h.calls, List.map_map]
  rfl

/-- A vote that is lost: who was asked, and who is told to roll back. -/
lemma Votes.calls_of_error {v : Except TxError (List Participant)} {e : TxError}
    (h : Votes c lastAgent prepared unvoted es v) (hv : v = .error e) :
    ∃ unasked, unvoted.map (·.adapter) = asked es ++ unasked ∧
      (agreed es ++ unready es).Sublist (asked es) ∧
      calls es = (asked es).map (.prepare · c.id) ++ (prepared.map (·.adapter) ++ agreed es ++
        unready es ++ unasked ++ lastAgent.toList.map (·.adapter)).map c.undoing := by
  induction h with
  | all => cases hv
  | @marked prepared ps p es fs reason h =>
    -- whoever has not voted so far is not asked any more
    have hu := h.unpolling
    refine ⟨(p :: ps).map (·.adapter), ?_, ?_, ?_⟩
    · simp [hu.asked]
    · simp [hu.agreed, hu.unready]
    · simp [h.calls_eq, hu.asked, hu.agreed, hu.unready]
  | commit h ih =>
    obtain ⟨unasked, hps, hs, hcalls⟩ := ih hv
    exact ⟨unasked, by simp [hps], by simpa using hs, by simp [hcalls]⟩
  | readOnly h ih =>
    obtain ⟨unasked, hps, hs, hcalls⟩ := ih hv
    exact ⟨unasked, by simp [hps], by simpa using hs.cons _, by simp [hcalls]⟩
  | @rollback prepared ps p es fs h =>
    -- who refuses was asked, and is not told
    have hu := h.unpolling
    refine ⟨ps.map (·.adapter), ?_, ?_, ?_⟩
    · simp [hu.asked]
    · simp [hu.agreed, hu.unready]
    · simp [h.calls_eq, hu.asked, hu.agreed, hu.unready]
  | @failed prepared ps p es fs e h =>
    -- who failed to answer was asked, and is told as well
    have hu := h.unpolling
    refine ⟨ps.map (·.adapter), ?_, ?_, ?_⟩
    · simp [hu.asked]
    · simp [hu.asked, hu.agreed, hu.unready]
    · simp [h.calls_eq, hu.asked, hu.agreed, hu.unready]

/-- A vote that is won: all were asked, nobody refused, and those who agreed are known. -/
lemma Votes.calls_of_ok {v : Except TxError (List Participant)} {won : List Participant}
    (h : Votes c lastAgent prepared unvoted es v) (hv : v = .ok won) :
    asked es = unvoted.map (·.adapter) ∧ unready es = [] ∧
      won.map (·.adapter) = prepared.map (·.adapter) ++ agreed es ∧
      calls es = (asked es).map (.prepare · c.id) ∧ ∀ e ∈ es, e.refuses = false := by
  induction h with
  | all =>
    cases hv
    exact ⟨rfl, rfl, (List.append_nil _).symm, rfl, by simp⟩
  | marked _ _ => cases hv
  | commit h ih =>
    obtain ⟨hasked, hunready, hwon, hcalls, hcontent⟩ := ih hv
    exact ⟨by simp [hasked], by simp [hunready], by simp [hwon], by simp [hcalls],
      List.forall_mem_cons.mpr ⟨rfl, hcontent⟩⟩
  | readOnly h ih =>
    obtain ⟨hasked, hunready, hwon, hcalls, hcontent⟩ := ih hv
    exact ⟨by simp [hasked], by simp [hunready], by simp [hwon], by simp [hcalls],
      List.forall_mem_cons.mpr ⟨rfl, hcontent⟩⟩
  | rollback _ => cases hv
  | failed _ _ => cases hv

lemma Decides.calls_of_ok {x : Except TxError Unit} (h : Decides c prepared lastAgent es x)
    (hx : x = .ok ()) :
    calls es = (lastAgent.toList.map (·.adapter)).map (.commit · c.id true) := by
  cases h with
  | nobody => rfl
  | commit _ => rfl
  | mixed _ => cases hx
  | failed _ _ _ => cases hx

lemma Decides.calls_of_error {x : Except TxError Unit} {e : TxError}
    (h : Decides c prepared lastAgent es x) (hx : x = .error e) :
    calls es = (lastAgent.toList.map (·.adapter)).map (.commit · c.id true) ++
      (prepared.map (·.adapter)).map c.undoing := by
  cases h with
  | nobody => cases hx
  | commit _ => cases hx
  | mixed h => exact (calls_cons ..).trans (congrArg (_ :: ·) h.calls_eq)
  | failed _ _ h => exact (calls_cons ..).trans (congrArg (_ :: ·) h.calls_eq)

/-- The decision is written, or those who agreed are told to roll back. -/
lemma CarriesOut.written_or_calls {x : Except TxError Unit}
    (h : CarriesOut c lastAgent prepared es x) :
    (∃ r ∈ written es, r.decision = .committed) ∨
      calls es = (prepared.map (·.adapter)).map c.undoing := by
  cases h with
  | unwritten time e h => exact .inr ((calls_recording ..).trans h.calls_eq)
  | nobody time _ _ => exact .inl ⟨_, List.mem_cons_self .., rfl⟩
  | told time _ _ _ _ _ => exact .inl ⟨_, List.mem_cons_self .., rfl⟩

/-! #### What is not done -/

/-- A rollback serves no commit. -/
lemma RollsBack.not_advances (h : RollsBack c targets es fs) :
    ∀ e ∈ es, e.question.advances = false := by
  refine h.forall_mem (fun _ _ => rfl) (fun _ _ _ => rfl) fun e x hx => ?_
  rw [hx]
  rfl

lemma Readies.not_advances (h : Readies es) : ∀ e ∈ es, e.question.advances = false := by
  intro e he
  obtain ⟨x, hx⟩ := h e he
  rw [hx]
  rfl

/-- The decision could not be written, and all is rolled back. -/
lemma unrecorded_of_unwritten {es₁ : List Exchange} {pending : List ResourceId} {time : UInt64}
    {e : StorageError} (h₁ : Neutral es₁) (h : RollsBack c targets es fs) :
    Unrecorded (es₁ ++ c.recording .committed pending time (.error e) :: es) := by
  refine ⟨⟨c.recording .committed pending time (.error e), by simp, rfl, rfl⟩, fun r hr hd => ?_⟩
  rw [written_append, h₁.written, written_cons] at hr
  have hrolledBack := h.decision r (by simpa [recording, Exchange.written?] using hr)
  rw [hd] at hrolledBack
  cases hrolledBack

/-- A vote serves no commit by itself. -/
lemma Votes.not_advances {v : Except TxError (List Participant)}
    (h : Votes c lastAgent prepared unvoted es v) : ∀ e ∈ es, e.question.advances = false :=
  h.forall_mem (fun _ _ => rfl) fun _ _ _ h => h.not_advances

lemma advances_of_deserts {e : Exchange} (h : e.deserts = true) : e.question.advances = true := by
  obtain ⟨q, a⟩ := e
  cases q with
  | commit k i onePhase => rfl
  | _ => cases h

lemma not_deserts_of_not_advances (h : ∀ e ∈ es, e.question.advances = false) :
    ∀ e ∈ es, e.deserts = false := by
  intro e he
  by_contra hd
  have ha := advances_of_deserts (Bool.not_eq_false _ ▸ hd)
  rw [h e he] at ha
  cases ha

lemma Decides.not_deserts {x : Except TxError Unit} (h : Decides c prepared lastAgent es x)
    (hx : x = .ok ()) : ∀ e ∈ es, e.deserts = false := by
  cases h with
  | nobody => simp
  | commit ha =>
    refine List.forall_mem_singleton.mpr ?_
    rcases ha with rfl | rfl
    · rfl
    · simp [committing, Exchange.deserts]
  | mixed _ => cases hx
  | failed _ _ _ => cases hx

lemma CarriesOut.not_deserts {x : Except TxError Unit} (h : CarriesOut c lastAgent prepared es x) :
    ∀ e ∈ es, e.deserts = false := by
  rintro ⟨q, a⟩ he
  cases q with
  | commit k i onePhase =>
    cases onePhase with
    | false => rfl
    | true =>
      cases h.concludes.settles.telling _ he with
      | commit hp _ => exact absurd rfl (h.concludes.not_onePhase _ he _)
  | _ => rfl

/-! #### The whole -/

/-- A commit in two phases whose vote is refused, or that does nothing that serves a commit. -/
lemma TwoPhase.givesUp {x : Except TxError Unit} (h : TwoPhase c ps es x)
    (hd : (ps.map (·.adapter)).Nodup)
    (hes : (∃ e ∈ es, e.refuses = true) ∨ ∀ e ∈ es, e.question.advances = false) :
    GivesUp c.id (ps.map (·.adapter)) es := by
  have hagents := nodup_agents hd
  have hnot : ∀ {es₁ es₂ : List Exchange}, (∀ e ∈ es₁, e.refuses = false) → Unpolling es₂ →
      (∃ e ∈ es₂, e.question.advances = true) → es ≠ es₁ ++ es₂ := by
    rintro es₁ es₂ h₁ h₂ ⟨e', he', ha⟩ rfl
    rcases hes with ⟨e, he, hr⟩ | hno
    · have hf := (List.mem_append.mp he).elim (h₁ e) (h₂.content e)
      rw [hr] at hf
      cases hf
    · rw [hno e' (List.mem_append_right _ he')] at ha
      cases ha
  cases h with
  | lost h =>
    obtain ⟨unasked, hps, hs, hcalls⟩ := h.calls_of_error rfl
    refine givesUp_of_calls unasked hagents ((filter_adapter ps).trans hps) hs ?_
    rw [hcalls, find_adapter]
    rfl
  | @marked es₁ es₂ won fs reason h₁ h₂ =>
    -- nobody is left whom the vote did not ask
    obtain ⟨hasked, hunready, hwon, hcalls, -⟩ := h₁.calls_of_ok rfl
    have hu := h₂.unpolling
    have ha : asked (es₁ ++ es₂) = asked es₁ := by simp [hu.asked]
    have hg : agreed (es₁ ++ es₂) = agreed es₁ := by simp [hu.agreed]
    have hn : unready (es₁ ++ es₂) = [] := by simp [hu.unready, hunready]
    refine givesUp_of_calls [] hagents ?_ ?_ ?_
    · rw [filter_adapter, ha, hasked, List.append_nil]
    · rw [ha, hg, hn, List.append_nil]
      exact agreed_sublist es₁
    · rw [calls_append, hcalls, h₂.calls_eq, ha, hg, hn, List.map_append, hwon, find_adapter]
      simp
      rfl
  | @refused es₁ es₂ won e h₁ h₂ =>
    obtain ⟨-, -, -, -, hcontent⟩ := h₁.calls_of_ok rfl
    exact absurd rfl (hnot hcontent h₂.unpolling (h₂.exists_advances rfl))
  | @decided es₁ es₂ es₃ won x h₁ h₂ h₃ =>
    obtain ⟨-, -, -, -, hcontent⟩ := h₁.calls_of_ok rfl
    have hcontent₂ := List.forall_mem_append.mpr ⟨hcontent, h₂.unpolling.content⟩
    exact absurd (List.append_assoc ..).symm (hnot hcontent₂ h₃.unpolling h₃.exists_advances)

/-- A commit in two phases whose last agent does not commit, or whose decision is not written. -/
lemma TwoPhase.takesBack {x : Except TxError Unit} (h : TwoPhase c ps es x)
    (hd : (ps.map (·.adapter)).Nodup)
    (hes : (∃ e ∈ es, e.deserts = true) ∨ Unrecorded es) :
    TakesBack c.id (ps.map (·.adapter)) es := by
  have hadvances : ∃ e ∈ es, e.question.advances = true := by
    rcases hes with ⟨e, he, hdes⟩ | ⟨⟨e, he, -, ha⟩, -⟩
    · exact ⟨e, he, advances_of_deserts hdes⟩
    · exact ⟨e, he, ha⟩
  have hnot : ¬∀ e ∈ es, e.question.advances = false := by
    obtain ⟨e, he, ha⟩ := hadvances
    intro hno
    rw [hno e he] at ha
    cases ha
  have hwon : ∀ {es₁ es₂ : List Exchange} {won : List Participant},
      Votes c (ps.find? (!·.twoPhase)) [] (ps.filter (·.twoPhase)) es₁ (.ok won) → Unpolling es₂ →
      calls es₂ = ((ps.find? (!·.twoPhase)).toList.map (·.adapter)).map (.commit · c.id true) ++
        (won.map (·.adapter)).map c.undoing → TakesBack c.id (ps.map (·.adapter)) (es₁ ++ es₂) := by
    intro es₁ es₂ won h₁ hu hcalls₂
    obtain ⟨hasked, -, hwon, hcalls, -⟩ := h₁.calls_of_ok rfl
    have hg : agreed (es₁ ++ es₂) = agreed es₁ := by simp [hu.agreed]
    refine takesBack_of_calls (nodup_agents hd) ?_ ?_
    · rw [hg, filter_adapter, ← hasked]
      exact agreed_sublist es₁
    · rw [calls_append, hcalls, hcalls₂, hwon, hg, hasked, filter_adapter, find_adapter,
        List.append_assoc]
      rfl
  cases h with
  | lost h => exact absurd h.not_advances hnot
  | marked _ h₁ h₂ =>
    exact absurd (List.forall_mem_append.mpr ⟨h₁.not_advances, h₂.not_advances⟩) hnot
  | refused h₁ h₂ => exact hwon h₁ h₂.unpolling (h₂.calls_of_error rfl)
  | @decided es₁ es₂ es₃ won x h₁ h₂ h₃ =>
    rcases h₃.written_or_calls with ⟨r, hr, hcommitted⟩ | hcalls
    · rcases hes with ⟨e, he, hdes⟩ | hun
      · have hno : ∀ e ∈ es₁ ++ (es₂ ++ es₃), e.deserts = false :=
          List.forall_mem_append.mpr ⟨not_deserts_of_not_advances h₁.not_advances,
            List.forall_mem_append.mpr ⟨h₂.not_deserts rfl, h₃.not_deserts⟩⟩
        rw [hno e he] at hdes
        cases hdes
      · refine absurd hcommitted (hun.unwritten r ?_)
        simp [hr]
    · refine hwon h₁ (h₂.unpolling.append h₃.unpolling) ?_
      rw [calls_append, h₂.calls_of_ok rfl, hcalls]

/-- With one participant that votes there is no last agent to fail. -/
lemma Direct.not_deserts {x : Except TxError Unit} {status : Status} (h : Direct c ps es x status)
    (hd : Transaction.isDirect ps = true) : ∀ e ∈ es, e.deserts = false := by
  rintro ⟨q, a⟩ he
  cases q with
  | commit k i onePhase =>
    cases h.settles.telling _ he with
    | @commit p hp _ =>
      have htwo : p.adapter.twoPhase = true := by
        match ps, hp with
        | [q], hp =>
          obtain rfl := List.mem_singleton.mp hp
          exact hd
        | _ :: _ :: _, _ => cases hd
      cases onePhase with
      | false => rfl
      | true => cases a <;> simp [Exchange.deserts, htwo]
  | _ => rfl

section Outcome

variable {u : Transaction} {steps : List (System × System)} {x : Except TxError Unit}

lemma Outcome.givesUp (h : Outcome c u steps .commit es x)
    (hd : (u.participants.map (·.adapter)).Nodup)
    (hes : (∃ e ∈ es, e.refuses = true) ∨ Polled c.tx steps ∧ u.rollbackReason ≠ none) :
    GivesUp c.id (u.participants.map (·.adapter)) es := by
  -- without a vote nobody refuses
  have hnot : Unpolling es → ¬Polled c.tx steps → False := by
    rintro hu hp
    rcases hes with ⟨e, he, hr⟩ | ⟨hpolled, -⟩
    · rw [hu.content e he] at hr
      cases hr
    · exact hp hpolled
  have hno := fun why (hu : u.rollbackReason = some why) => h.not_advances hu
  cases h with
  | marked hp _ hb h => exact (hnot (hb.unpolling.append h.unpolling) hp).elim
  | direct hp _ _ hb h => exact (hnot (hb.unpolling.append h.settles.unpolling) hp).elim
  | voted _ _ _ hb h _ =>
    refine (h.givesUp hd ?_).after hb.unpolling hb.calls
    rcases hes with ⟨e, he, hr⟩ | ⟨-, hu⟩
    · refine .inl ⟨e, (List.mem_append.mp he).resolve_left fun he => ?_, hr⟩
      rw [hb.unpolling.content e he] at hr
      cases hr
    · obtain ⟨why, hwhy⟩ := Option.ne_none_iff_exists'.mp hu
      exact .inr fun e he => hno why hwhy e (List.mem_append_right _ he)

lemma Outcome.takesBack (h : Outcome c u steps .commit es x)
    (hd : (u.participants.map (·.adapter)).Nodup)
    (hes : (∃ e ∈ es, e.deserts = true) ∨
      Transaction.isDirect u.participants = false ∧ Unrecorded es) :
    TakesBack c.id (u.participants.map (·.adapter)) es := by
  cases h with
  | @marked befores es fs why _ _ hb h =>
    have hno : ∀ e ∈ befores ++ es, e.question.advances = false :=
      List.forall_mem_append.mpr ⟨hb.not_advances, h.not_advances⟩
    rcases hes with ⟨e, he, hdes⟩ | ⟨-, ⟨e, he, -, ha⟩, -⟩
    · rw [not_deserts_of_not_advances hno e he] at hdes
      cases hdes
    · rw [hno e he] at ha
      cases ha
  | @direct befores es x _ hdirect _ hb h =>
    rcases hes with ⟨e, he, hdes⟩ | ⟨hdirect', -⟩
    · have hno : ∀ e ∈ befores ++ es, e.deserts = false := List.forall_mem_append.mpr
        ⟨not_deserts_of_not_advances hb.not_advances, h.not_deserts hdirect⟩
      rw [hno e he] at hdes
      cases hdes
    · rw [hdirect] at hdirect'
      cases hdirect'
  | @voted befores es x _ _ _ hb h _ =>
    refine (h.takesBack hd ?_).after hb.unpolling hb.calls
    rcases hes with ⟨e, he, hdes⟩ | ⟨-, hun⟩
    · refine .inl ⟨e, (List.mem_append.mp he).resolve_left fun he => ?_, hdes⟩
      rw [not_deserts_of_not_advances hb.not_advances e he] at hdes
      cases hdes
    · exact .inr ((unrecorded_append_iff hb.neutral hb.not_advances).mp hun)

end Outcome

end Completion

/-! ### In a program -/

namespace Machine

variable {M : Machine} {x : Request} {as : List Adapter}

/-- Who hears of it when the request `x` does not come to a commit of its transaction, of those that
were enlisted in it. -/
structure Hears (M : Machine) (x : Request) (as : List Adapter) : Prop where
  /-- A rollback, or the commit of a transaction that was marked before the vote. -/
  undoes : x.how = .rollback ∨ x.AcceptedMarked ∨
      ¬Polled x.tx x.steps ∧ (M.system.tx x.tx).rollbackReason ≠ none →
    Undoes (M.system.tx x.tx).id (as.map (·.toAdapterKey)) x.exchanges
  /-- A commit whose vote is refused, or whose transaction is marked during the vote. -/
  givesUp : x.how = .commit → (∃ e ∈ x.exchanges, e.refuses = true) ∨
      Polled x.tx x.steps ∧ (M.system.tx x.tx).rollbackReason ≠ none →
    GivesUp (M.system.tx x.tx).id (as.map (·.toAdapterKey)) x.exchanges
  /-- A commit whose last agent does not commit, or whose decision is not written. -/
  takesBack : x.how = .commit → (∃ e ∈ x.exchanges, e.deserts = true) ∨
      Transaction.isDirect (M.system.tx x.tx).participants = false ∧ Unrecorded x.exchanges →
    TakesBack (M.system.tx x.tx).id (as.map (·.toAdapterKey)) x.exchanges

/-- A transaction that was marked when it was taken has a reason to be rolled back. -/
lemma Reachable.reason_of_acceptedMarked (hM : M.Reachable) (hx : x ∈ M.requests)
    (hm : x.AcceptedMarked) : (M.system.tx x.tx).rollbackReason ≠ none := by
  obtain ⟨p, hp, -, hmarked, -⟩ := hm
  obtain ⟨clock, seed, hinit⟩ := hM
  rcases hinit.own hx hp with ⟨y, hy, -⟩ | ⟨N, N', hN, hstep, hN', rfl⟩
  · cases hy
  · have hreach : N.Reachable := ⟨clock, seed, hN⟩
    have hr : x.tx < N.system.transactions.size := System.lt_size_of_status (by simp [hmarked])
    obtain ⟨owner, hsound⟩ := hreach.sound
    obtain ⟨why, hwhy⟩ := Option.ne_none_iff_exists'.mp ((hsound.marks x.tx hr).marked hmarked)
    have hgrows := (hreach.grows (.head hstep hN')).grows x.tx hr
    rw [hgrows.onward.reason why hwhy]
    simp

/-- Everybody who was enlisted hears of an abort, nobody else calls them, and what has taken the
transaction comes to its end. -/
theorem abort_heard (hE : M.Enlists x.tx as) {i : Nat} (hi : M.requests[i]? = some x)
    (ha : x.Accepted) :
    (∀ (j : Nat) (y : Request), M.requests[j]? = some y → y.tx = x.tx → j ≠ i → y.exchanges = []) ∧
    (∀ reply, ∃ n y t result, ((answer reply i)^[n] M).requests[i]? = some y ∧
      y.progress = .done t result ∧ x.Continued y) ∧
    ∀ t result, x.progress = .done t result → M.Hears x as := by
  have hM := hE.reachable
  have hx : x ∈ M.requests := List.mem_of_getElem? hi
  obtain ⟨owner, hsound⟩ := hM.sound
  have hown := hsound.owner_of_accepted hi ha
  refine ⟨fun j y hj hy hne => ?_, fun reply => exists_answers_done reply hi, fun t result hp => ?_⟩
  · refine (hsound.outside j y hj ?_).silent
    rw [hy, hown]
    exact fun h => hne (Option.some.inj h).symm
  · obtain ⟨c, hc, hid, houtcome, hmarked⟩ := hM.outcome hx ha hp
    have hkeys : (M.system.tx x.tx).participants.map (·.adapter) = as.map (·.toAdapterKey) := by
      rw [Transaction.participants_adapter, hE.adapters]
    have hd := (hsound.distinct x.tx (hsound.refers i x hi)).nodup
    refine ⟨fun h => ?_, fun hhow h => ?_, fun hhow h => ?_⟩
    · rw [← hkeys, ← hid]
      refine undoes_of_calls hd ?_
      rw [List.map_map]
      cases hhow : x.how with
      | rollback =>
        rw [hhow] at houtcome
        cases houtcome with
        | rolledBack _ h => exact h.calls
      | commit =>
        -- what takes a marked transaction asks nobody for a vote
        have hbefore : ¬Polled x.tx x.steps ∧ (M.system.tx x.tx).rollbackReason ≠ none := by
          rcases h with h | h | h
          · rw [hhow] at h
            cases h
          · exact ⟨hmarked hhow h, hM.reason_of_acceptedMarked hx h⟩
          · exact h
        obtain ⟨why, hwhy⟩ := Option.ne_none_iff_exists'.mp hbefore.2
        exact (houtcome.calls_of_not_polled hwhy (hc ▸ hbefore.1)).1
    · rw [hhow] at houtcome
      rw [← hkeys, ← hid]
      exact houtcome.givesUp hd (hc.symm ▸ h)
    · rw [hhow] at houtcome
      rw [← hkeys, ← hid]
      exact houtcome.takesBack hd h

/-- Four are enlisted, the first of them without a first phase; one of them is dissociated again. It
is requested to complete their transaction, and all questions are answered. -/
def quartet (how : Ending) (reply : (q : Question) → q.Answer) : Machine :=
  let begun := ((initial 0 0).operate (.addManager {} 0)).operate (.begin 0 none)
  let enlisted := (((begun.operate (.enlist 0 { ref := 0, id := ⟨"z"⟩, twoPhase := false })).operate
    (.enlist 0 { ref := 1, id := ⟨"a"⟩ })).operate (.enlist 0 { ref := 2, id := ⟨"b"⟩ })).operate
    (.enlist 0 { ref := 3, id := ⟨"c"⟩ })
  let dissociated := enlisted.operate (.delist 0 { ref := 3, id := ⟨"c"⟩ } .success)
  (answer reply 0)^[60] (dissociated.request how 0 0)

lemma reachable_quartet (how : Ending) (reply : (q : Question) → q.Answer) :
    (quartet how reply).Reachable :=
  (((((((((reachable_initial 0 0).operate _).operate _).operate _).operate _).operate _).operate
    _).operate _).request ..).answers ..

/-- The second of those who are asked for their votes cannot be reached. -/
def refused : Machine :=
  quartet .commit fun
    | .prepare k _ => if k.ref = 2 then .error (.unavailable "down") else .ok .commit
    | q => Dialogue.someAnswer q

/-- The last agent cannot be reached. -/
def deserted : Machine :=
  quartet .commit fun
    | .prepare .. => .ok .commit
    | .commit _ _ true => .error (.unavailable "down")
    | q => Dialogue.someAnswer q

theorem abort_heard_quartet :
    (∃ as, (quartet .rollback Dialogue.someAnswer).Enlists 0 as ∧
      ∀ x ∈ (quartet .rollback Dialogue.someAnswer).requests,
        Undoes ((quartet .rollback Dialogue.someAnswer).system.tx 0).id (as.map (·.toAdapterKey))
          x.exchanges) ∧
    (∃ as, refused.Enlists 0 as ∧ ∀ x ∈ refused.requests,
      GivesUp (refused.system.tx 0).id (as.map (·.toAdapterKey)) x.exchanges) ∧
    (∃ as, deserted.Enlists 0 as ∧ ∀ x ∈ deserted.requests,
      TakesBack (deserted.system.tx 0).id (as.map (·.toAdapterKey)) x.exchanges) ∧
    refused.requests.map (fun x => (calls x.exchanges).filterMap fun q => q.callee?.map (·.ref)) =
      [[1, 2, 1, 2, 3, 0]] := by
  have hall : ∀ how reply, (∀ x ∈ (quartet how reply).requests,
      x.tx = 0 ∧ x.Accepted ∧ x.progress.result?.isSome = true) →
      ∃ as, (quartet how reply).Enlists 0 as ∧
        ∀ x ∈ (quartet how reply).requests, (quartet how reply).Hears x as := by
    intro how reply hx
    obtain ⟨as, hE⟩ := (reachable_quartet how reply).exists_enlists 0
    refine ⟨as, hE, fun x hmem => ?_⟩
    obtain ⟨htx, ha, hresult⟩ := hx x hmem
    obtain ⟨i, hi⟩ := List.getElem?_of_mem hmem
    obtain ⟨result, hresult⟩ := Option.isSome_iff_exists.mp hresult
    obtain ⟨t, hdone⟩ := Dialogue.exists_of_result? hresult
    exact (abort_heard (htx.symm ▸ hE) hi ha).2.2 t result hdone
  refine ⟨?_, ?_, ?_, by decide +kernel⟩
  · obtain ⟨as, hE, hhears⟩ := hall .rollback Dialogue.someAnswer (by decide +kernel)
    have hhow : ∀ x ∈ (quartet .rollback Dialogue.someAnswer).requests,
        x.tx = 0 ∧ x.how = .rollback := by decide +kernel
    refine ⟨as, hE, fun x hx => ?_⟩
    rw [← (hhow x hx).1]
    exact (hhears x hx).undoes (.inl (hhow x hx).2)
  · obtain ⟨as, hE, hhears⟩ := hall _ _ (by decide +kernel : ∀ x ∈ refused.requests, _)
    have hhow : ∀ x ∈ refused.requests,
        x.tx = 0 ∧ x.how = .commit ∧ ∃ e ∈ x.exchanges, e.refuses = true := by decide +kernel
    refine ⟨as, hE, fun x hx => ?_⟩
    obtain ⟨htx, hcommit, hrefuses⟩ := hhow x hx
    rw [← htx]
    exact (hhears x hx).givesUp hcommit (.inl hrefuses)
  · obtain ⟨as, hE, hhears⟩ := hall _ _ (by decide +kernel : ∀ x ∈ deserted.requests, _)
    have hhow : ∀ x ∈ deserted.requests,
        x.tx = 0 ∧ x.how = .commit ∧ ∃ e ∈ x.exchanges, e.deserts = true := by decide +kernel
    refine ⟨as, hE, fun x hx => ?_⟩
    obtain ⟨htx, hcommit, hdeserts⟩ := hhow x hx
    rw [← htx]
    exact (hhears x hx).takesBack hcommit (.inl hdeserts)

end Machine

end TwoPhaseCommit
