import Mathlib.Data.List.Nodup
import TwoPhaseCommit.Proofs.Course

/-!
# The order of a commit in two phases

`Orderly` says in which order the participants of a transaction are asked and told, and the log is
written. It is kept by every beginning of an orderly course, so that it holds at every point of a
run if it holds of all complete courses (`TwoPhase.orderly`).
-/

namespace TwoPhaseCommit

/-! ### What is asked and told -/

/-- The participant that is asked for its vote on a transaction. -/
def Question.asked? (id : TxId) : Question → Option AdapterKey
  | prepare k i => if i = id then some k else none
  | _ => none

/-- The participant that is told the outcome of a transaction. -/
def Question.told? (id : TxId) : Question → Option AdapterKey
  | commit k i _ => if i = id then some k else none
  | rollback k i => if i = id then some k else none
  | _ => none

/-- Whether a participant casts a vote on a transaction. -/
def Exchange.casts (id : TxId) (k : AdapterKey) (v : Vote) : Exchange → Bool
  | ⟨.prepare k' i, .ok v'⟩ => k' == k && i == id && v' == v
  | _ => false

/-- The names of those who voted to commit, in the order of enlistment. -/
def voters (id : TxId) (ps : List Participant) (es : List Exchange) : List ResourceId :=
  (ps.filter fun p => es.any (·.casts id p.adapter .commit)).map (·.id)

/-- `P` holds of every exchange and those before it. -/
def Throughout (P : List Exchange → Exchange → Prop) (es : List Exchange) : Prop :=
  ∀ pre e post, es = pre ++ e :: post → P pre e

/-- The order of a commit in two phases among the participants `ps`. -/
structure Orderly (log : LogRef) (id : TxId) (ps : List Participant) (es : List Exchange) :
    Prop where
  /-- Only participants are called, and for this transaction. -/
  addressed : ∀ e ∈ es, ∀ i k, e.question.asked? i = some k ∨ e.question.told? i = some k →
    i = id ∧ k ∈ ps.map (·.adapter)
  /-- One log is written, and about this transaction. -/
  logged : ∀ e ∈ es, ∀ l r, e.question = .append l r → l = log ∧ r.tx = id
  /-- Whoever is told to commit in phase two is told so after the decision was written, with exactly
  those pending who voted to commit. -/
  writeAhead : Throughout (fun pre e => ∀ k, e.question = .commit k id false →
    ∃ time, ⟨.append log ⟨id, .committed, voters id ps pre, time⟩, .ok ()⟩ ∈ pre) es
  /-- The last agent is told to commit after all others have agreed, and before the log is
  written. -/
  lastAgent : Throughout (fun pre e => ∀ k, e.question = .commit k id true →
    (∃ p ∈ ps, p.twoPhase = false ∧ p.adapter = k) ∧
    (∀ p ∈ ps, p.twoPhase = true → ∃ v, v ≠ .rollback ∧ ⟨.prepare p.adapter id, .ok v⟩ ∈ pre) ∧
    ∀ e' ∈ pre, ∀ l r, e'.question ≠ .append l r) es
  askedOnce : (es.filterMap (·.question.asked? id)).Nodup
  /-- Nobody is told an outcome twice, nor two outcomes. -/
  toldOnce : (es.filterMap (·.question.told? id)).Nodup
  /-- All that are asked are asked before anybody is told. -/
  askedFirst : Throughout (fun pre e => (e.question.asked? id).isSome →
    ∀ e' ∈ pre, e'.question.told? id = none) es
  /-- Where phase two begins nobody is told to roll back. -/
  unmixed : ∀ e ∈ es, ∀ e' ∈ es, ∀ k k', e.question = .commit k id false →
    e'.question ≠ .rollback k' id

section Throughout

variable {P Q : List Exchange → Exchange → Prop} {es es₁ es₂ : List Exchange}

lemma throughout_of_forall (h : ∀ e ∈ es, ∀ pre, P pre e) : Throughout P es := by
  rintro pre e post rfl
  exact h e (List.mem_append_right _ (List.mem_cons_self ..)) pre

lemma Throughout.mono (h : Throughout P es) (hPQ : ∀ pre e, P pre e → Q pre e) : Throughout Q es :=
  fun pre e post hes => hPQ pre e (h pre e post hes)

lemma Throughout.append (h₁ : Throughout P es₁)
    (h₂ : Throughout (fun pre e => P (es₁ ++ pre) e) es₂) : Throughout P (es₁ ++ es₂) := by
  intro pre e post h
  rcases List.append_eq_append_iff.mp h with ⟨as, rfl, has⟩ | ⟨bs, hes, hbs⟩
  · exact h₂ as e post has
  · cases bs with
    | nil =>
      rw [List.append_nil] at hes
      subst hes
      have hnil : P (es₁ ++ []) e := h₂ [] e post hbs.symm
      rw [List.append_nil] at hnil
      exact hnil
    | cons b bs =>
      rw [List.cons_append, List.cons.injEq] at hbs
      obtain ⟨rfl, -⟩ := hbs
      exact h₁ pre _ bs hes

/-- What comes after a first part. -/
lemma Throughout.drop (h : Throughout P (es₁ ++ es₂)) :
    Throughout (fun pre e => P (es₁ ++ pre) e) es₂ := by
  rintro pre e post rfl
  exact h (es₁ ++ pre) e post (List.append_assoc ..).symm

lemma throughout_nil : Throughout P [] := by
  intro pre e post h
  simp at h

lemma Throughout.cons {e : Exchange} (h₁ : P [] e) (h₂ : Throughout (fun pre => P (e :: pre)) es) :
    Throughout P (e :: es) := by
  rintro (_ | ⟨b, pre⟩) e' post h
  · rw [List.nil_append, List.cons.injEq] at h
    rw [← h.1]
    exact h₁
  · rw [List.cons_append, List.cons.injEq] at h
    obtain ⟨rfl, h⟩ := h
    exact h₂ pre e' post h

lemma throughout_cons_iff {e : Exchange} :
    Throughout P (e :: es) ↔ P [] e ∧ Throughout (fun pre => P (e :: pre)) es := by
  constructor
  · intro h
    refine ⟨h [] e es rfl, ?_⟩
    rintro pre e' post rfl
    exact h (e :: pre) e' post rfl
  · rintro ⟨h₁, h₂⟩
    exact .cons h₁ h₂

instance Throughout.decidable : (P : List Exchange → Exchange → Prop) →
    [∀ pre e, Decidable (P pre e)] → (es : List Exchange) → Decidable (Throughout P es)
  | _, _, [] => isTrue throughout_nil
  | P, _, e :: es =>
    have := Throughout.decidable (fun pre => P (e :: pre)) es
    decidable_of_iff (P [] e ∧ Throughout (fun pre => P (e :: pre)) es) throughout_cons_iff.symm

lemma Throughout.of_prefix (h : Throughout P es) (hp : es₁ <+: es) : Throughout P es₁ := by
  obtain ⟨es₂, rfl⟩ := hp
  rintro pre e post rfl
  exact h pre e (post ++ es₂) (by simp)

end Throughout

lemma orderly_nil (log : LogRef) (id : TxId) (ps : List Participant) : Orderly log id ps [] where
  addressed := by simp
  logged := by simp
  writeAhead := throughout_of_forall (by simp)
  lastAgent := throughout_of_forall (by simp)
  askedOnce := List.nodup_nil
  toldOnce := List.nodup_nil
  askedFirst := throughout_of_forall (by simp)
  unmixed := by simp

/-- What has begun in order is in order so far. -/
lemma Orderly.of_prefix {log : LogRef} {id : TxId} {ps : List Participant} {es es' : List Exchange}
    (h : Orderly log id ps es) (hp : es' <+: es) : Orderly log id ps es' where
  addressed e he := h.addressed e (hp.subset he)
  logged e he := h.logged e (hp.subset he)
  writeAhead := h.writeAhead.of_prefix hp
  lastAgent := h.lastAgent.of_prefix hp
  askedOnce := (hp.sublist.filterMap _).nodup h.askedOnce
  toldOnce := (hp.sublist.filterMap _).nodup h.toldOnce
  askedFirst := h.askedFirst.of_prefix hp
  unmixed e he e' he' := h.unmixed e (hp.subset he) e' (hp.subset he')

namespace Completion

variable {c : Completion} {ps qs targets prepared : List Participant} {es es₁ es₂ : List Exchange}
  {fs : List HeuristicFailure}

/-! ### The vote -/

/-- Participants are asked for their votes, one after the other. -/
def Asks (c : Completion) (qs : List Participant) (es : List Exchange) : Prop :=
  es.map (·.question) = qs.map fun p => .prepare p.adapter c.id

/-- A vote that is lost ends with a rollback. -/
lemma Votes.lost {lastAgent : Option Participant} {unvoted : List Participant}
    {x : Except TxError (List Participant)} {e : TxError}
    (h : Votes c lastAgent prepared unvoted es x) (hx : x = .error e) :
    ∃ qs es₁ es₂ targets fs, es = es₁ ++ es₂ ∧ qs <+: unvoted ∧ Asks c qs es₁ ∧
      RollsBack c targets es₂ fs ∧ targets.Sublist (prepared ++ unvoted ++ lastAgent.toList) := by
  induction h with
  | all => cases hx
  | @marked prepared ps p es fs reason h =>
    exact ⟨[], [], es, _, fs, rfl, List.nil_prefix, rfl, h, .refl _⟩
  | @commit prepared ps p es x h ih =>
    obtain ⟨qs, es₁, es₂, targets, fs, rfl, hqs, ha, hr, ht⟩ := ih hx
    refine ⟨p :: qs, _ :: es₁, es₂, targets, fs, rfl, (List.cons_prefix_cons.mpr ⟨rfl, hqs⟩), ?_, hr,
      ?_⟩
    · exact congrArg (_ :: ·) ha
    · rw [List.append_cons]
      exact ht
  | @readOnly prepared ps p es x h ih =>
    obtain ⟨qs, es₁, es₂, targets, fs, rfl, hqs, ha, hr, ht⟩ := ih hx
    refine ⟨p :: qs, _ :: es₁, es₂, targets, fs, rfl, (List.cons_prefix_cons.mpr ⟨rfl, hqs⟩), ?_, hr,
      ht.trans ?_⟩
    · exact congrArg (_ :: ·) ha
    · exact ((List.sublist_cons_self p ps).append_left prepared).append_right _
  | @rollback prepared ps p es fs h =>
    refine ⟨[p], [_], es, _, fs, rfl, ?_, rfl, h, ?_⟩
    · exact List.cons_prefix_cons.mpr ⟨rfl, List.nil_prefix⟩
    · exact ((List.sublist_cons_self p ps).append_left prepared).append_right _
  | @failed prepared ps p es fs e h =>
    refine ⟨[p], [_], es, _, fs, rfl, ?_, rfl, h, .refl _⟩
    exact List.cons_prefix_cons.mpr ⟨rfl, List.nil_prefix⟩

lemma casts_ballot_iff {p q : Participant} {a : Except ResourceError Vote} {v : Vote} :
    (c.ballot q a).casts c.id p.adapter v = true ↔ q.adapter = p.adapter ∧ a = .ok v := by
  cases a with
  | error e => simp [ballot, Exchange.casts]
  | ok v' => simp [ballot, Exchange.casts]

/-- Only who was asked casts a vote. -/
lemma Asks.asked (h : Asks c qs es) {p : Participant} {v : Vote} {e : Exchange} (he : e ∈ es)
    (hv : e.casts c.id p.adapter v = true) : p.adapter ∈ qs.map (·.adapter) := by
  have hq : e.question ∈ es.map (·.question) := List.mem_map_of_mem he
  rw [h] at hq
  obtain ⟨q, hqs, he'⟩ := List.mem_map.mp hq
  obtain ⟨question, answer⟩ := e
  obtain rfl : Question.prepare q.adapter c.id = question := he'
  have hk := (casts_ballot_iff (c := c) (q := q) (a := answer)).mp hv
  exact hk.1 ▸ List.mem_map_of_mem hqs

/-- A vote that is won: all have agreed, and those who voted to commit are known. -/
lemma Votes.won {lastAgent : Option Participant} {unvoted : List Participant}
    {x : Except TxError (List Participant)} {all : List Participant}
    (h : Votes c lastAgent prepared unvoted es x) (hx : x = .ok all)
    (hd : (unvoted.map (·.adapter)).Nodup) :
    Asks c unvoted es ∧
    (∀ p ∈ unvoted, ∃ v, v ≠ .rollback ∧ c.ballot p (.ok v) ∈ es) ∧
    all = prepared ++ unvoted.filter fun p => es.any (·.casts c.id p.adapter .commit) := by
  induction h with
  | @all prepared =>
    cases hx
    exact ⟨rfl, by simp, by simp⟩
  | marked _ _ => cases hx
  | @commit prepared ps p es x h ih =>
    rw [List.map_cons, List.nodup_cons] at hd
    obtain ⟨ha, hv, rfl⟩ := ih hx hd.2
    refine ⟨congrArg (_ :: ·) ha, ?_, ?_⟩
    · intro q hq
      rcases List.mem_cons.mp hq with rfl | hq
      · exact ⟨.commit, by simp, List.mem_cons_self ..⟩
      · obtain ⟨v, hv, he⟩ := hv q hq
        exact ⟨v, hv, List.mem_cons_of_mem _ he⟩
    · have hp : (c.ballot p (.ok .commit)).casts c.id p.adapter .commit = true :=
        casts_ballot_iff.mpr ⟨rfl, rfl⟩
      -- its vote is nobody else's
      have hps : ∀ q ∈ ps, (c.ballot p (.ok .commit)).casts c.id q.adapter .commit = false := by
        intro q hq
        rw [Bool.eq_false_iff]
        intro hc
        exact hd.1 ((casts_ballot_iff.mp hc).1 ▸ List.mem_map_of_mem hq)
      rw [List.filter_cons_of_pos (by simp [hp]), List.append_assoc, List.singleton_append]
      congr 2
      exact List.filter_congr fun q hq => by simp [hps q hq]
  | @readOnly prepared ps p es x h ih =>
    rw [List.map_cons, List.nodup_cons] at hd
    obtain ⟨ha, hv, rfl⟩ := ih hx hd.2
    refine ⟨congrArg (_ :: ·) ha, ?_, ?_⟩
    · intro q hq
      rcases List.mem_cons.mp hq with rfl | hq
      · exact ⟨.readOnly, by simp, List.mem_cons_self ..⟩
      · obtain ⟨v, hv, he⟩ := hv q hq
        exact ⟨v, hv, List.mem_cons_of_mem _ he⟩
    · have hnone : ∀ q : Participant,
          (c.ballot p (.ok .readOnly)).casts c.id q.adapter .commit = false := by
        intro q
        simp [ballot, Exchange.casts]
      -- it is not asked a second time, and so it never votes to commit
      have hp : ¬(es.any (·.casts c.id p.adapter .commit) = true) := by
        intro hc
        obtain ⟨e, he, hc⟩ := List.any_eq_true.mp hc
        exact hd.1 (ha.asked he hc)
      rw [List.filter_cons_of_neg (by simpa [hnone p] using hp)]
      congr 1
      exact List.filter_congr fun q hq => by simp [hnone q]
  | rollback _ => cases hx
  | failed _ _ => cases hx

/-! ### After the vote -/

/-- What is said after the vote, when some participants are told the outcome. -/
inductive Telling (c : Completion) (told : List Participant) : Question → Prop
  | commit {p : Participant} (hp : p ∈ told) (onePhase : Bool) :
    Telling c told (.commit p.adapter c.id onePhase)
  | rollback {p : Participant} (hp : p ∈ told) : Telling c told (.rollback p.adapter c.id)
  | append {r : LogRecord} (hr : r.tx = c.id) : Telling c told (.append c.log r)
  | notify (x : Synchronization) (s : Status) : Telling c told (.afterCompletion x s)

/-- Some participants are told the outcome, one after the other. -/
structure Settles (c : Completion) (told : List Participant) (es : List Exchange) : Prop where
  telling : ∀ e ∈ es, Telling c told e.question
  told : es.filterMap (·.question.told? c.id) = told.map (·.adapter)

lemma Telling.mono {told told' : List Participant} {q : Question} (h : Telling c told q)
    (hs : told ⊆ told') : Telling c told' q := by
  cases h with
  | commit hp onePhase => exact .commit (hs hp) onePhase
  | rollback hp => exact .rollback (hs hp)
  | append hr => exact .append hr
  | notify x s => exact .notify x s

lemma Settles.append {told₁ told₂ : List Participant} (h₁ : Settles c told₁ es₁)
    (h₂ : Settles c told₂ es₂) : Settles c (told₁ ++ told₂) (es₁ ++ es₂) where
  telling e he := by
    rcases List.mem_append.mp he with he | he
    · exact (h₁.telling e he).mono (List.subset_append_left ..)
    · exact (h₂.telling e he).mono (List.subset_append_right ..)
  told := by rw [List.filterMap_append, List.map_append, h₁.told, h₂.told]

lemma settles_nil : Settles c [] [] := ⟨by simp, rfl⟩

lemma settles_recording (d : Decision) (pending : List ResourceId) (time : UInt64)
    (a : Except StorageError Unit) : Settles c [] [c.recording d pending time a] := by
  refine ⟨fun e he => ?_, rfl⟩
  obtain rfl := List.mem_singleton.mp he
  exact .append rfl

lemma Notifies.question {outcome : Status} (h : Notifies outcome es) :
    ∀ e ∈ es, ∃ x, e.question = .afterCompletion x outcome := by
  obtain ⟨xs, h⟩ := h
  intro e he
  have hmem : e.question ∈ es.map (·.question) := List.mem_map_of_mem he
  rw [h] at hmem
  obtain ⟨x, -, hx⟩ := List.mem_map.mp hmem
  exact ⟨x, hx.symm⟩

lemma Notifies.settles {outcome : Status} (h : Notifies outcome es) : Settles c [] es := by
  refine ⟨fun e he => ?_, List.filterMap_eq_nil_iff.mpr fun e he => ?_⟩
  · obtain ⟨x, hx⟩ := h.question e he
    rw [hx]
    exact .notify x outcome
  · obtain ⟨x, hx⟩ := h.question e he
    rw [hx]
    rfl

lemma Tells.settles {tell : Participant → Except ResourceError Unit → Exchange}
    {own : ResourceError} (h : Tells tell own targets es fs)
    (ht : ∀ p a, Settles c [p] [tell p a]) : Settles c targets es := by
  induction h with
  | nil => exact settles_nil
  | confirmed _ _ ih => exact (ht _ _).append ih
  | failed _ _ ih => exact (ht _ _).append ih

lemma settles_committing (onePhase : Bool) (p : Participant) (a : Except ResourceError Unit) :
    Settles c [p] [c.committing onePhase p a] := by
  refine ⟨fun e he => ?_, by simp [committing, Question.told?]⟩
  obtain rfl := List.mem_singleton.mp he
  exact .commit (List.mem_singleton_self p) onePhase

lemma settles_rollingBack (p : Participant) (a : Except ResourceError Unit) :
    Settles c [p] [c.rollingBack p a] := by
  refine ⟨fun e he => ?_, by simp [rollingBack, Question.told?]⟩
  obtain rfl := List.mem_singleton.mp he
  exact .rollback (List.mem_singleton_self p)

/-- Whoever is told something is told just that. -/
lemma Tells.question {tell : Participant → Except ResourceError Unit → Exchange}
    {own : ResourceError} (h : Tells tell own targets es fs) :
    ∀ e ∈ es, ∃ p a, e = tell p a := by
  induction h with
  | nil => simp
  | confirmed _ _ ih =>
    intro e he
    rcases List.mem_cons.mp he with rfl | he
    · exact ⟨_, _, rfl⟩
    · exact ih e he
  | failed _ _ ih =>
    intro e he
    rcases List.mem_cons.mp he with rfl | he
    · exact ⟨_, _, rfl⟩
    · exact ih e he

lemma RollsBack.settles (h : RollsBack c targets es fs) : Settles c targets es := by
  obtain ⟨es₁, time, a, es₂, h₁, h₂, rfl⟩ := h
  have hs := (h₁.settles settles_rollingBack).append
    ((settles_recording .rolledBack (fs.map (·.resource)) time a).append h₂.settles)
  rw [List.append_nil, List.append_nil] at hs
  exact hs

/-- A rollback consists of calls that tell it, the record of it, and callbacks that are told. -/
lemma RollsBack.forall_mem {P : Exchange → Prop} (h : RollsBack c targets es fs)
    (hcall : ∀ p a, P (c.rollingBack p a))
    (hrecord : ∀ pending time a, P (c.recording .rolledBack pending time a))
    (hnotify : ∀ e x, e.question = .afterCompletion x .rolledBack → P e) : ∀ e ∈ es, P e := by
  obtain ⟨es₁, time, a, es₂, h₁, h₂, rfl⟩ := h
  intro e he
  rcases List.mem_append.mp he with he | he
  · obtain ⟨p, a, rfl⟩ := h₁.question e he
    exact hcall p a
  · rcases List.mem_cons.mp he with rfl | he
    · exact hrecord ..
    · obtain ⟨x, hx⟩ := h₂.question e he
      exact hnotify e x hx

/-- A vote consists of ballots and, if it is lost, of a rollback. -/
lemma Votes.forall_mem {P : Exchange → Prop} {lastAgent : Option Participant}
    {prepared unvoted : List Participant} {v : Except TxError (List Participant)}
    (h : Votes c lastAgent prepared unvoted es v) (hballot : ∀ p a, P (c.ballot p a))
    (hback : ∀ targets es fs, RollsBack c targets es fs → ∀ e ∈ es, P e) : ∀ e ∈ es, P e := by
  induction h with
  | all => simp
  | marked _ h => exact hback _ _ _ h
  | commit _ ih => exact List.forall_mem_cons.mpr ⟨hballot _ _, ih⟩
  | readOnly _ ih => exact List.forall_mem_cons.mpr ⟨hballot _ _, ih⟩
  | rollback h => exact List.forall_mem_cons.mpr ⟨hballot _ _, hback _ _ _ h⟩
  | failed _ h => exact List.forall_mem_cons.mpr ⟨hballot _ _, hback _ _ _ h⟩

/-- A rollback tells nobody to commit. -/
lemma RollsBack.not_commit (h : RollsBack c targets es fs) :
    ∀ e ∈ es, ∀ k i onePhase, e.question ≠ .commit k i onePhase := by
  refine h.forall_mem (by simp [rollingBack]) (by simp [recording]) fun e x hx => ?_
  rw [hx]
  simp

/-- What is left after the vote and the last agent: either nobody is told to commit, or those that
are are told so once the decision is written, and nobody is told to roll back. -/
structure Concludes (c : Completion) (told : List Participant) (pending : List ResourceId)
    (es : List Exchange) : Prop where
  settles : Settles c told es
  not_onePhase : ∀ e ∈ es, ∀ k, e.question ≠ .commit k c.id true
  writeAhead : Throughout (fun pre e => ∀ k, e.question = .commit k c.id false →
    ∃ time, c.recording .committed pending time (.ok ()) ∈ pre) es
  unmixed : ∀ e ∈ es, ∀ e' ∈ es, ∀ k k', e.question = .commit k c.id false →
    e'.question ≠ .rollback k' c.id

lemma concludes_of_not_commit {pending : List ResourceId} (hs : Settles c targets es)
    (h : ∀ e ∈ es, ∀ k i onePhase, e.question ≠ .commit k i onePhase) :
    Concludes c targets pending es where
  settles := hs
  not_onePhase e he k := h e he k c.id true
  writeAhead := throughout_of_forall fun e he _ k hq => absurd hq (h e he k c.id false)
  unmixed e he _ _ k _ hq := absurd hq (h e he k c.id false)

lemma RollsBack.concludes (h : RollsBack c targets es fs) (pending : List ResourceId) :
    Concludes c targets pending es :=
  concludes_of_not_commit h.settles h.not_commit

lemma CarriesOut.concludes {lastAgent : Option Participant} {x : Except TxError Unit}
    (h : CarriesOut c lastAgent prepared es x) :
    Concludes c prepared (prepared.map (·.id)) es := by
  cases h with
  | @unwritten es fs time e h =>
    refine concludes_of_not_commit ?_ ?_
    · exact (settles_recording .committed (prepared.map (·.id)) time (.error e)).append h.settles
    · intro e' he' k i onePhase hq
      rcases List.mem_cons.mp he' with rfl | he'
      · cases hq
      · exact h.not_commit e' he' k i onePhase hq
  | @nobody es time hp h =>
    subst hp
    refine concludes_of_not_commit ?_ ?_
    · exact (settles_recording .committed [] time (.ok ())).append h.settles
    · intro e' he' k i onePhase hq
      rcases List.mem_cons.mp he' with rfl | he'
      · cases hq
      · obtain ⟨x, hx⟩ := h.question e' he'
        rw [hx] at hq
        cases hq
  | @told es₁ es₂ fs time time' a hp h₁ h₂ =>
    -- besides those that are told to commit there are records and callbacks only
    have hothers : ∀ e ∈ c.recording .committed (fs.map (·.resource)) time' a :: es₂,
        ∀ k i onePhase, e.question ≠ .commit k i onePhase := by
      intro e he k i onePhase hq
      rcases List.mem_cons.mp he with rfl | he
      · cases hq
      · obtain ⟨x, hx⟩ := h₂.question e he
        rw [hx] at hq
        cases hq
    have hcases : ∀ e ∈ c.recording .committed (prepared.map (·.id)) time (.ok ()) :: es₁ ++
        c.recording .committed (fs.map (·.resource)) time' a :: es₂,
        (∀ k i onePhase, e.question ≠ .commit k i onePhase) ∧ (∀ k i, e.question ≠ .rollback k i) ∨
        ∃ p a, e = c.committing false p a := by
      intro e he
      rcases List.mem_append.mp he with he | he
      · rcases List.mem_cons.mp he with rfl | he
        · exact .inl ⟨fun _ _ _ => nofun, fun _ _ => nofun⟩
        · exact .inr (h₁.question e he)
      · refine .inl ⟨hothers e he, fun k i hq => ?_⟩
        rcases List.mem_cons.mp he with rfl | he
        · cases hq
        · obtain ⟨x, hx⟩ := h₂.question e he
          rw [hx] at hq
          cases hq
    refine ⟨?_, fun e he k hq => ?_, ?_, fun e _ e' he' k k' _ hq => ?_⟩
    · have hs := ((settles_recording .committed (prepared.map (·.id)) time (.ok ())).append
        (h₁.settles (settles_committing false))).append
        ((settles_recording .committed (fs.map (·.resource)) time' a).append h₂.settles)
      rw [List.append_nil, List.append_nil, List.nil_append] at hs
      exact hs
    · rcases hcases e he with ⟨hn, -⟩ | ⟨p, a, rfl⟩
      · exact hn k c.id true hq
      · cases hq
    · refine Throughout.append (Throughout.cons (fun _ => nofun) ?_) ?_
      · intro pre e post _ k _
        exact ⟨time, List.mem_cons_self ..⟩
      · exact throughout_of_forall fun e he _ k hq => absurd hq (hothers e he k c.id false)
    · rcases hcases e' he' with ⟨-, hn⟩ | ⟨p, a, rfl⟩
      · exact hn k' c.id hq
      · cases hq

/-! ### The whole -/

lemma Asks.question (h : Asks c qs es) :
    ∀ e ∈ es, ∃ q ∈ qs, e.question = .prepare q.adapter c.id := by
  intro e he
  have hmem : e.question ∈ es.map (·.question) := List.mem_map_of_mem he
  rw [h] at hmem
  obtain ⟨q, hq, hx⟩ := List.mem_map.mp hmem
  exact ⟨q, hq, hx.symm⟩

lemma Telling.asked {told : List Participant} {q : Question} (h : Telling c told q) (i : TxId) :
    q.asked? i = none := by
  cases h <;> rfl

lemma Telling.told {told : List Participant} {q : Question} (h : Telling c told q) {i : TxId}
    {k : AdapterKey} (hk : q.told? i = some k) : i = c.id ∧ k ∈ told.map (·.adapter) := by
  cases h with
  | commit hp _ =>
    obtain ⟨rfl, hk'⟩ := Option.ite_none_right_eq_some.mp hk
    exact ⟨rfl, Option.some.inj hk' ▸ List.mem_map_of_mem hp⟩
  | rollback hp =>
    obtain ⟨rfl, hk'⟩ := Option.ite_none_right_eq_some.mp hk
    exact ⟨rfl, Option.some.inj hk' ▸ List.mem_map_of_mem hp⟩
  | append _ => cases hk
  | notify _ _ => cases hk

lemma asked_of_casts {i : TxId} {k : AdapterKey} {v : Vote} {e : Exchange}
    (h : e.casts i k v = true) : e.question.asked? i = some k := by
  unfold Exchange.casts at h
  split at h
  next k' i' v' =>
    simp only [Bool.and_eq_true, beq_iff_eq] at h
    simp [Question.asked?, h.1.1, h.1.2]
  next => cases h

/-- Whoever is not asked does not count. -/
lemma voters_eq {i : TxId} {es₃ : List Exchange} (h₁ : ∀ e ∈ es₁, e.question.asked? i = none)
    (h₃ : ∀ e ∈ es₃, e.question.asked? i = none) :
    voters i ps (es₁ ++ (es₂ ++ es₃)) = voters i ps es₂ := by
  have hnone : ∀ {es : List Exchange}, (∀ e ∈ es, e.question.asked? i = none) →
      ∀ k, es.any (·.casts i k .commit) = false := by
    intro es h k
    rw [List.any_eq_false]
    intro e he hc
    have hk := asked_of_casts hc
    rw [h e he] at hk
    cases hk
  unfold voters
  congr 1
  apply List.filter_congr
  intro p _
  rw [List.any_append, List.any_append, hnone h₁, hnone h₃, Bool.false_or, Bool.or_false]

/-- The parts of a commit: the callbacks, the vote, the last agent, and the rest. -/
structure Parts (c : Completion) (ps : List Participant) (befores votes last rest : List Exchange) :
    Prop where
  distinct : (ps.map (·.adapter)).Nodup
  readies : ∀ e ∈ befores, ∃ x, e.question = .beforeCompletion x
  asks : ∃ qs, Asks c qs votes ∧ qs.Sublist ps
  tells : ∃ agents told, Settles c agents last ∧ Concludes c told (voters c.id ps votes) rest ∧
    ((agents ++ told).map (·.adapter)).Nodup ∧ agents ++ told ⊆ ps
  agent : ∀ e ∈ last, ∃ p ∈ ps, p.twoPhase = false ∧ ∃ a, e = c.committing true p a
  agreed : last ≠ [] → ∀ q ∈ ps, q.twoPhase = true →
    ∃ v, v ≠ .rollback ∧ c.ballot q (.ok v) ∈ votes

namespace Parts

variable {befores votes last rest : List Exchange}

lemma before (h : Parts c ps befores votes last rest) : ∀ e ∈ befores,
    e.question.asked? c.id = none ∧ e.question.told? c.id = none ∧
      ∀ l r, e.question ≠ .append l r := by
  intro e he
  obtain ⟨x, hx⟩ := h.readies e he
  rw [hx]
  exact ⟨rfl, rfl, fun _ _ => nofun⟩

lemma vote (h : Parts c ps befores votes last rest) : ∀ e ∈ votes,
    e.question.told? c.id = none ∧ ∀ l r, e.question ≠ .append l r := by
  intro e he
  obtain ⟨qs, ha, -⟩ := h.asks
  obtain ⟨q, -, hq⟩ := ha.question e he
  rw [hq]
  exact ⟨rfl, fun _ _ => nofun⟩

lemma telling (h : Parts c ps befores votes last rest) :
    ∀ e ∈ last ++ rest, Telling c ps e.question := by
  obtain ⟨agents, told, hs, hr, -, hsub⟩ := h.tells
  intro e he
  exact ((hs.append hr.settles).telling e he).mono hsub

/-- What the question of an exchange may be, by its place. -/
lemma cases (h : Parts c ps befores votes last rest) {e : Exchange}
    (he : e ∈ befores ++ (votes ++ (last ++ rest))) :
    (∃ x, e.question = .beforeCompletion x) ∨ (∃ q ∈ ps, e.question = .prepare q.adapter c.id) ∨
      e ∈ last ++ rest ∧ Telling c ps e.question := by
  rcases List.mem_append.mp he with he | he
  · exact .inl (h.readies e he)
  · rcases List.mem_append.mp he with he | he
    · obtain ⟨qs, ha, hqs⟩ := h.asks
      obtain ⟨q, hq, hx⟩ := ha.question e he
      exact .inr (.inl ⟨q, hqs.subset hq, hx⟩)
    · exact .inr (.inr ⟨he, h.telling e he⟩)

lemma addressed (h : Parts c ps befores votes last rest) {e : Exchange}
    (he : e ∈ befores ++ (votes ++ (last ++ rest))) {i : TxId} {k : AdapterKey}
    (hk : e.question.asked? i = some k ∨ e.question.told? i = some k) :
    i = c.id ∧ k ∈ ps.map (·.adapter) := by
  rcases h.cases he with ⟨x, hx⟩ | ⟨q, hq, hx⟩ | ⟨-, ht⟩
  · rw [hx] at hk
    rcases hk with hk | hk <;> cases hk
  · rw [hx] at hk
    rcases hk with hk | hk
    · obtain ⟨rfl, hk'⟩ := Option.ite_none_right_eq_some.mp hk
      exact ⟨rfl, Option.some.inj hk' ▸ List.mem_map_of_mem hq⟩
    · cases hk
  · rcases hk with hk | hk
    · rw [ht.asked] at hk
      cases hk
    · exact ht.told hk

lemma logged (h : Parts c ps befores votes last rest) {e : Exchange}
    (he : e ∈ befores ++ (votes ++ (last ++ rest))) {l : LogRef} {r : LogRecord}
    (hq : e.question = .append l r) : l = c.log ∧ r.tx = c.id := by
  rcases h.cases he with ⟨x, hx⟩ | ⟨q, -, hx⟩ | ⟨-, ht⟩
  · rw [hx] at hq
    cases hq
  · rw [hx] at hq
    cases hq
  · rw [hq] at ht
    cases ht with
    | append hr => exact ⟨rfl, hr⟩

/-- Nobody is told to commit before the last agent is. -/
lemma not_commit (h : Parts c ps befores votes last rest) {e : Exchange}
    (he : e ∈ befores ∨ e ∈ votes) (k : AdapterKey) (onePhase : Bool) :
    e.question ≠ .commit k c.id onePhase := by
  intro hq
  rcases he with he | he
  · obtain ⟨x, hx⟩ := h.readies e he
    rw [hx] at hq
    cases hq
  · obtain ⟨qs, ha, -⟩ := h.asks
    obtain ⟨q, -, hx⟩ := ha.question e he
    rw [hx] at hq
    cases hq

lemma writeAhead (h : Parts c ps befores votes last rest) :
    Throughout (fun pre e => ∀ k, e.question = .commit k c.id false →
      ∃ time, c.recording .committed (voters c.id ps pre) time (.ok ()) ∈ pre)
      (befores ++ (votes ++ (last ++ rest))) := by
  refine .append (throughout_of_forall fun e he _ k hq => absurd hq (h.not_commit (.inl he) k _))
    (.append (throughout_of_forall fun e he _ k hq => absurd hq (h.not_commit (.inr he) k _))
      (.append (throughout_of_forall fun e he _ k hq => ?_) ?_))
  · obtain ⟨p, -, -, a, rfl⟩ := h.agent e he
    cases hq
  · -- the voters can be read off any part that reaches behind the vote
    intro pre e post hpre k hq
    obtain ⟨agents, told, -, hr, -⟩ := h.tells
    obtain ⟨time, ht⟩ := hr.writeAhead pre e post hpre k hq
    have hrest : ∀ e ∈ last ++ pre, e.question.asked? c.id = none := by
      intro e he
      refine (h.telling e ?_).asked c.id
      rw [hpre, ← List.append_assoc]
      exact List.mem_append_left _ he
    refine ⟨time, ?_⟩
    rw [voters_eq (fun e he => (h.before e he).1) hrest]
    exact List.mem_append_right _ (List.mem_append_right _ (List.mem_append_right _ ht))

lemma lastAgent (h : Parts c ps befores votes last rest) :
    Throughout (fun pre e => ∀ k, e.question = .commit k c.id true →
      (∃ p ∈ ps, p.twoPhase = false ∧ p.adapter = k) ∧
      (∀ p ∈ ps, p.twoPhase = true → ∃ v, v ≠ .rollback ∧ c.ballot p (.ok v) ∈ pre) ∧
      ∀ e' ∈ pre, ∀ l r, e'.question ≠ .append l r)
      (befores ++ (votes ++ (last ++ rest))) := by
  refine .append (throughout_of_forall fun e he _ k hq => absurd hq (h.not_commit (.inl he) k _))
    (.append (throughout_of_forall fun e he _ k hq => absurd hq (h.not_commit (.inr he) k _))
      (.append ?_ (throughout_of_forall fun e he _ k hq => ?_)))
  · intro pre e post hpre k hq
    have he : e ∈ last := by
      rw [hpre]
      exact List.mem_append_right _ (List.mem_cons_self ..)
    refine ⟨?_, fun q hq' htwo => ?_, fun e' he' l r hr' => ?_⟩
    · obtain ⟨p, hp, htwo, a, rfl⟩ := h.agent e he
      cases hq
      exact ⟨p, hp, htwo, rfl⟩
    · obtain ⟨v, hv, hmem⟩ := h.agreed (List.ne_nil_of_mem he) q hq' htwo
      exact ⟨v, hv, List.mem_append_right _ (List.mem_append_left _ hmem)⟩
    · rcases List.mem_append.mp he' with he' | he'
      · exact (h.before e' he').2.2 l r hr'
      · rcases List.mem_append.mp he' with he' | he'
        · exact (h.vote e' he').2 l r hr'
        · have hmem : e' ∈ last := by
            rw [hpre]
            exact List.mem_append_left _ he'
          obtain ⟨p, -, -, a, rfl⟩ := h.agent e' hmem
          cases hr'
  · -- all others are told in the second phase
    obtain ⟨agents, told, -, hr, -⟩ := h.tells
    exact absurd hq (hr.not_onePhase e he k)

lemma askedOnce (h : Parts c ps befores votes last rest) :
    ((befores ++ (votes ++ (last ++ rest))).filterMap (·.question.asked? c.id)).Nodup := by
  obtain ⟨qs, ha, hqs⟩ := h.asks
  have hbefores : befores.filterMap (·.question.asked? c.id) = [] :=
    List.filterMap_eq_nil_iff.mpr fun e he => (h.before e he).1
  have hvotes : votes.filterMap (·.question.asked? c.id) = qs.map (·.adapter) := by
    have hcomp : votes.filterMap (·.question.asked? c.id) =
        (votes.map (·.question)).filterMap (·.asked? c.id) := by
      rw [List.filterMap_map]
      rfl
    rw [hcomp, ha, List.filterMap_map]
    simp [Function.comp_def, Question.asked?]
  have hrest : (last ++ rest).filterMap (·.question.asked? c.id) = [] :=
    List.filterMap_eq_nil_iff.mpr fun e he => (h.telling e he).asked c.id
  rw [List.filterMap_append, List.filterMap_append, hbefores, hvotes, hrest, List.nil_append,
    List.append_nil]
  exact (hqs.map _).nodup h.distinct

lemma toldOnce (h : Parts c ps befores votes last rest) :
    ((befores ++ (votes ++ (last ++ rest))).filterMap (·.question.told? c.id)).Nodup := by
  obtain ⟨agents, told, hs, hr, hn, -⟩ := h.tells
  have hbefores : befores.filterMap (·.question.told? c.id) = [] :=
    List.filterMap_eq_nil_iff.mpr fun e he => (h.before e he).2.1
  have hvotes : votes.filterMap (·.question.told? c.id) = [] :=
    List.filterMap_eq_nil_iff.mpr fun e he => (h.vote e he).1
  rw [List.filterMap_append, List.filterMap_append, hbefores, hvotes, (hs.append hr.settles).told]
  exact hn

lemma askedFirst (h : Parts c ps befores votes last rest) :
    Throughout (fun pre e => (e.question.asked? c.id).isSome →
      ∀ e' ∈ pre, e'.question.told? c.id = none) (befores ++ (votes ++ (last ++ rest))) := by
  refine .append (throughout_of_forall fun e he _ hq => ?_)
    (.append ?_ (throughout_of_forall fun e he _ hq => ?_))
  · rw [(h.before e he).1] at hq
    cases hq
  · intro pre e post hpre _ e' he'
    rcases List.mem_append.mp he' with he' | he'
    · exact (h.before e' he').2.1
    · refine (h.vote e' ?_).1
      rw [hpre]
      exact List.mem_append_left _ he'
  · rw [(h.telling e he).asked] at hq
    cases hq

lemma unmixed (h : Parts c ps befores votes last rest) {e e' : Exchange}
    (he : e ∈ befores ++ (votes ++ (last ++ rest)))
    (he' : e' ∈ befores ++ (votes ++ (last ++ rest))) {k k' : AdapterKey}
    (hq : e.question = .commit k c.id false) : e'.question ≠ .rollback k' c.id := by
  have hin : ∀ e ∈ befores ++ (votes ++ (last ++ rest)), ∀ k,
      e.question = .commit k c.id false ∨ e.question = .rollback k c.id → e ∈ rest := by
    intro e he k hq
    rcases h.cases he with ⟨x, hx⟩ | ⟨q, -, hx⟩ | ⟨hmem, -⟩
    · rw [hx] at hq
      rcases hq with hq | hq <;> cases hq
    · rw [hx] at hq
      rcases hq with hq | hq <;> cases hq
    · rcases List.mem_append.mp hmem with hmem | hmem
      · obtain ⟨p, -, -, a, rfl⟩ := h.agent e hmem
        rcases hq with hq | hq <;> cases hq
      · exact hmem
  obtain ⟨agents, told, -, hr, -⟩ := h.tells
  intro hq'
  exact hr.unmixed e (hin e he k (.inl hq)) e' (hin e' he' k' (.inr hq')) k k' hq hq'

lemma orderly (h : Parts c ps befores votes last rest) :
    Orderly c.log c.id ps (befores ++ (votes ++ (last ++ rest))) where
  addressed _ he _ _ hk := h.addressed he hk
  logged _ he _ _ hq := h.logged he hq
  writeAhead := h.writeAhead
  lastAgent := h.lastAgent
  askedOnce := h.askedOnce
  toldOnce := h.toldOnce
  askedFirst := h.askedFirst
  unmixed _ he _ he' _ _ hq := h.unmixed he he' hq

end Parts

/-! ### Complete courses -/

lemma twoPhase_of_mem {p : Participant} (hp : p ∈ ps.filter (·.twoPhase)) : p.twoPhase = true :=
  (List.mem_filter.mp hp).2

/-- The last agent, if there is one. -/
lemma find_lastAgent {p : Participant} (h : p ∈ (ps.find? (!·.twoPhase)).toList) :
    p ∈ ps ∧ p.twoPhase = false := by
  rw [Option.mem_toList] at h
  refine ⟨List.mem_of_find?_eq_some h, ?_⟩
  have hp := List.find?_some h
  rw [Bool.not_eq_true'] at hp
  exact hp

/-- No adapter votes and is the last agent as well. -/
lemma nodup_split (hd : (ps.map (·.adapter)).Nodup) :
    ((ps.filter (·.twoPhase) ++ (ps.find? (!·.twoPhase)).toList).map (·.adapter)).Nodup := by
  rw [List.map_append, List.nodup_append]
  refine ⟨(List.filter_sublist.map _).nodup hd, ?_, ?_⟩
  · cases ps.find? (!·.twoPhase) with
    | none => exact List.nodup_nil
    | some p => exact List.nodup_singleton _
  · intro k hk k' hk' hkk
    obtain ⟨p, hp, rfl⟩ := List.mem_map.mp hk
    obtain ⟨q, hq, rfl⟩ := List.mem_map.mp hk'
    have htwo : p.twoPhase = q.twoPhase := congrArg AdapterKey.twoPhase hkk
    rw [twoPhase_of_mem hp, (find_lastAgent hq).2] at htwo
    cases htwo

lemma subset_split : ps.filter (·.twoPhase) ++ (ps.find? (!·.twoPhase)).toList ⊆ ps := by
  intro p hp
  rcases List.mem_append.mp hp with hp | hp
  · exact (List.mem_filter.mp hp).1
  · exact (find_lastAgent hp).1

/-- Those who voted to commit are those who were asked and did. -/
lemma voters_of_won (ha : Asks c (ps.filter (·.twoPhase)) es) :
    voters c.id ps es = (((ps.filter (·.twoPhase)).filter fun p =>
      es.any (·.casts c.id p.adapter .commit)).map (·.id)) := by
  unfold voters
  rw [List.filter_filter]
  congr 1
  apply List.filter_congr
  intro p hp
  cases hc : es.any (·.casts c.id p.adapter .commit) with
  | false => rfl
  | true =>
    obtain ⟨e, he, hv⟩ := List.any_eq_true.mp hc
    obtain ⟨q, hq, hqp⟩ := List.mem_map.mp (ha.asked he hv)
    have htwo : q.twoPhase = p.twoPhase := congrArg AdapterKey.twoPhase hqp
    rw [← htwo, twoPhase_of_mem hq]
    rfl

/-- The last agent is told to commit first, and if that decides against it all else is a
rollback. -/
lemma Decides.parts {lastAgent : Option Participant} {x : Except TxError Unit}
    (h : Decides c prepared lastAgent es x) : ∃ last rest, es = last ++ rest ∧
    Settles c lastAgent.toList last ∧
    (∀ e ∈ last, ∃ p ∈ lastAgent.toList, ∃ a, e = c.committing true p a) ∧
    (x = .ok () ∧ rest = [] ∨ (∃ e, x = .error e) ∧ ∃ fs, RollsBack c prepared rest fs) := by
  have hsingle : ∀ (p : Participant) (a : Except ResourceError Unit),
      ∀ e ∈ [c.committing true p a], ∃ q ∈ (some p).toList, ∃ a, e = c.committing true q a := by
    intro p a e he
    obtain rfl := List.mem_singleton.mp he
    exact ⟨p, List.mem_singleton_self p, a, rfl⟩
  cases h with
  | nobody => exact ⟨[], [], rfl, settles_nil, by simp, .inl ⟨rfl, rfl⟩⟩
  | @commit p a _ =>
    exact ⟨[_], [], rfl, settles_committing true p a, hsingle p a, .inl ⟨rfl, rfl⟩⟩
  | @mixed p es fs h =>
    exact ⟨[_], es, rfl, settles_committing true p _, hsingle p _, .inr ⟨⟨_, rfl⟩, fs, h⟩⟩
  | @failed p e es fs _ _ h =>
    exact ⟨[_], es, rfl, settles_committing true p _, hsingle p _, .inr ⟨⟨_, rfl⟩, fs, h⟩⟩

/-- After a vote that is won, the last agent decides and the rest follows. -/
lemma parts_of_won {befores votes last rest : List Exchange} {won : List Participant}
    (hd : (ps.map (·.adapter)).Nodup) (hb : ∀ e ∈ befores, ∃ x, e.question = .beforeCompletion x)
    (hv : Votes c (ps.find? (!·.twoPhase)) [] (ps.filter (·.twoPhase)) votes (.ok won))
    (hs : Settles c (ps.find? (!·.twoPhase)).toList last)
    (hl : ∀ e ∈ last, ∃ p ∈ (ps.find? (!·.twoPhase)).toList, ∃ a, e = c.committing true p a)
    (hr : Concludes c won (won.map (·.id)) rest) : Parts c ps befores votes last rest := by
  have htwo := (List.filter_sublist (l := ps) (p := (·.twoPhase))).map (·.adapter)
  obtain ⟨ha, hagreed, rfl⟩ := hv.won rfl (htwo.nodup hd)
  rw [List.nil_append, ← voters_of_won ha] at hr
  have hsub := (List.filter_sublist (l := ps.filter (·.twoPhase))
    (p := fun p => votes.any (·.casts c.id p.adapter .commit))).append_right
    (ps.find? (!·.twoPhase)).toList
  refine ⟨hd, hb, ⟨_, ha, List.filter_sublist⟩, ⟨_, _, hs, hr, ?_, ?_⟩, fun e he => ?_,
    fun _ q hq htwo => ?_⟩
  · rw [(List.perm_append_comm.map _).nodup_iff]
    exact (hsub.map _).nodup (nodup_split hd)
  · intro p hp
    exact subset_split (hsub.subset (List.mem_append.mpr (List.mem_append.mp hp).symm))
  · obtain ⟨p, hp, a, rfl⟩ := hl e he
    exact ⟨p, (find_lastAgent hp).1, (find_lastAgent hp).2, a, rfl⟩
  · exact hagreed q (List.mem_filter.mpr ⟨hq, htwo⟩)

/-- A commit in two phases, from beginning to end, is in order. -/
lemma TwoPhase.orderly {x : Except TxError Unit} (h : TwoPhase c ps es x)
    (hd : (ps.map (·.adapter)).Nodup) {befores : List Exchange}
    (hb : ∀ e ∈ befores, ∃ x, e.question = .beforeCompletion x) :
    Orderly c.log c.id ps (befores ++ es) := by
  cases h with
  | lost h =>
    obtain ⟨qs, es₁, es₂, targets, fs, rfl, hqs, ha, hr, ht⟩ := h.lost rfl
    rw [List.nil_append] at ht
    have hparts : Parts c ps befores es₁ [] es₂ := by
      refine ⟨hd, hb, ⟨qs, ha, hqs.sublist.trans List.filter_sublist⟩,
        ⟨[], targets, settles_nil, hr.concludes _, ?_, ?_⟩, by simp, fun hn => absurd rfl hn⟩
      · exact (ht.map _).nodup (nodup_split hd)
      · exact fun p hp => subset_split (ht.subset hp)
    exact hparts.orderly
  | @marked es₁ es₂ won fs reason hv hr =>
    have htwo := (List.filter_sublist (l := ps) (p := (·.twoPhase))).map (·.adapter)
    obtain ⟨ha, -, rfl⟩ := hv.won rfl (htwo.nodup hd)
    have hsub := (List.filter_sublist (l := ps.filter (·.twoPhase))
      (p := fun p => es₁.any (·.casts c.id p.adapter .commit))).append_right
      (ps.find? (!·.twoPhase)).toList
    have hparts : Parts c ps befores es₁ [] es₂ := by
      refine ⟨hd, hb, ⟨_, ha, List.filter_sublist⟩,
        ⟨[], _, settles_nil, hr.concludes _, ?_, ?_⟩, by simp, fun hn => absurd rfl hn⟩
      · exact (hsub.map _).nodup (nodup_split hd)
      · exact fun p hp => subset_split (hsub.subset hp)
    exact hparts.orderly
  | @refused es₁ es₂ won e hv hdec =>
    obtain ⟨last, rest, rfl, hs, hl, ⟨hx, -⟩ | ⟨-, fs, hr⟩⟩ := hdec.parts
    · cases hx
    · exact (parts_of_won hd hb hv hs hl (hr.concludes _)).orderly
  | @decided es₁ es₂ es₃ won x hv hdec hc =>
    obtain ⟨last, rest, rfl, hs, hl, ⟨-, rfl⟩ | ⟨⟨e, hx⟩, -⟩⟩ := hdec.parts
    · rw [List.append_nil]
      exact (parts_of_won hd hb hv hs hl hc.concludes).orderly
    · cases hx

end Completion

end TwoPhaseCommit
