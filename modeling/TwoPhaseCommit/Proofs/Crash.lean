import TwoPhaseCommit.Proofs.Commit
import TwoPhaseCommit.Proofs.Consistency
import TwoPhaseCommit.Proofs.Torn

/-!
# Crashes

A commit in two phases may be cut short anywhere; what it has said until then is consistent. So it
stays with all passes of recovery that follow. A cut within an append leaves the log as an append
that failed does, for the torn frame is not read (`LogScan.scan_torn`).
-/

namespace TwoPhaseCommit

/-- What begins as two parts do ends in the first or in the second. -/
lemma prefix_append_cases {α : Type} {l l₁ l₂ : List α} (h : l <+: l₁ ++ l₂) :
    l <+: l₁ ∨ ∃ l', l = l₁ ++ l' ∧ l' <+: l₂ := by
  rcases List.prefix_or_prefix_of_prefix h (List.prefix_append l₁ l₂) with h' | ⟨l', rfl⟩
  · exact .inl h'
  · exact .inr ⟨l', rfl, (List.prefix_append_right_inj l₁).mp h⟩

/-! ### Before the decision -/

/-- An exchange that neither tells anybody to commit nor writes that decision. -/
def Exchange.Withholds (id : TxId) (e : Exchange) : Prop :=
  (∀ k onePhase, e.question ≠ .commit k id onePhase) ∧
    ∀ r? : Option LogRecord, (∀ r ∈ r?, r.decision = .rolledBack) →
      ∀ r ∈ e.writes id r?, r.decision = .rolledBack

lemma Exchange.withholds_of_apart {id : TxId} {e : Exchange} {q : Question} (hq : e.question = q)
    (hc : ∀ k onePhase, q ≠ .commit k id onePhase) (ha : q.isAboutLog = false) :
    e.Withholds id := by
  subst hq
  refine ⟨hc, fun r? h => ?_⟩
  rw [Exchange.writes_of_apart ha]
  exact h

lemma consistent_of_withholds {id : TxId} {es : List Exchange} (h : ∀ e ∈ es, e.Withholds id) :
    Consistent id es := by
  refine .undecided (fun e he => (h e he).1) ?_
  induction es using List.reverseRecOn with
  | nil =>
    intro r hr
    cases hr
  | append_singleton es e ih =>
    rw [durable_append]
    refine (h e (List.mem_append_right _ (List.mem_singleton_self e))).2 _ ?_
    exact ih fun e' he' => h e' (List.mem_append_left _ he')

namespace Completion

variable {c : Completion} {ps qs targets prepared : List Participant} {es es₁ es₂ : List Exchange}
  {fs : List HeuristicFailure}

lemma withholds_recording {d : Decision} {pending : List ResourceId} {time : UInt64}
    {a : Except StorageError Unit} (h : d = .rolledBack ∨ ∃ e, a = .error e) :
    (c.recording d pending time a).Withholds c.id := by
  refine ⟨by simp [recording], fun r? hr => ?_⟩
  cases a with
  | error e => exact hr
  | ok u =>
    rcases h with rfl | ⟨e, he⟩
    · intro r hr'
      simp [recording, Exchange.writes] at hr'
      rw [← hr']
    · cases he

lemma Readies.withholds {id : TxId} (h : Readies es) : ∀ e ∈ es, e.Withholds id := by
  intro e he
  obtain ⟨x, hx⟩ := h e he
  exact Exchange.withholds_of_apart hx (by simp) rfl

lemma RollsBack.withholds (h : RollsBack c targets es fs) : ∀ e ∈ es, e.Withholds c.id :=
  h.forall_mem (fun _ _ => Exchange.withholds_of_apart rfl (by simp [rollingBack]) rfl)
    (fun _ _ _ => withholds_recording (.inl rfl))
    fun _ _ hx => Exchange.withholds_of_apart hx (by simp) rfl

lemma Asks.withholds (h : Asks c qs es) : ∀ e ∈ es, e.Withholds c.id := by
  intro e he
  have hq : e.question ∈ es.map (·.question) := List.mem_map_of_mem he
  rw [h] at hq
  obtain ⟨p, -, hp⟩ := List.mem_map.mp hq
  exact Exchange.withholds_of_apart hp.symm (by simp) rfl

/-! ### After the decision -/

/-- The decision was written, nobody was told to roll back, and whoever holds the transaction still
is pending. -/
lemma consistent_of_recorded {id : TxId} {r : LogRecord}
    (hd : durable id none (es₁ ++ es₂) = some r)
    (hr : r.decision = .committed) (hn : ∀ e ∈ es₁ ++ es₂, ∀ k, e.question ≠ .rollback k id)
    (hv : Voteless es₂)
    (hp : ∀ rid, holds id rid es₁ = true → (∀ e ∈ es₂, e.settles id rid = false) →
      rid ∈ r.pending ∨ Acknowledged id rid es₂) : Consistent id (es₁ ++ es₂) := by
  apply Consistent.decided hd hr hn
  intro rid hh
  obtain ⟨hbefore, hsettled⟩ := hv.holds hh
  refine (hp rid hbefore hsettled).imp_right ?_
  rintro ⟨e, he, ha⟩
  exact ⟨e, List.mem_append_right _ he, ha⟩

/-- Who is told an outcome either confirms it or counts as failed. -/
lemma Tells.covers {tell : Participant → Except ResourceError Unit → Exchange} {own : ResourceError}
    (h : Tells tell own targets es fs) {p : Participant} (hp : p ∈ targets) :
    p.id ∈ fs.map (·.resource) ∨ tell p (.ok ()) ∈ es ∨ tell p (.error own) ∈ es := by
  induction h with
  | nil => cases hp
  | confirmed ha _ ih =>
    rcases List.mem_cons.mp hp with rfl | hp
    · rcases ha with rfl | rfl
      · exact .inr (.inl (List.mem_cons_self ..))
      · exact .inr (.inr (List.mem_cons_self ..))
    · exact (ih hp).imp_right (.imp (List.mem_cons_of_mem _) (List.mem_cons_of_mem _))
  | failed _ _ ih =>
    rcases List.mem_cons.mp hp with rfl | hp
    · exact .inl (List.mem_cons_self ..)
    · exact (ih hp).imp (List.mem_cons_of_mem _)
        (.imp (List.mem_cons_of_mem _) (List.mem_cons_of_mem _))

/-- After a vote that was won only those hold the transaction who voted to commit. -/
lemma Votes.holders {lastAgent : Option Participant} {befores : List Exchange}
    (h : Votes c lastAgent [] ps es (.ok prepared)) (hd : (ps.map (·.adapter)).Nodup)
    (hb : Readies befores) {rid : ResourceId} (hh : holds c.id rid (befores ++ es) = true) :
    rid ∈ prepared.map (·.id) := by
  obtain ⟨ha, -, rfl⟩ := h.won rfl hd
  obtain ⟨e, he, hv⟩ := voted_of_holds hh
  obtain ⟨k, rfl, rfl⟩ := Exchange.votes_iff.mp hv
  rcases List.mem_append.mp he with he | he
  · obtain ⟨x, hx⟩ := hb _ he
    cases hx
  · have hcasts : Exchange.casts c.id k .commit ⟨.prepare k c.id, .ok .commit⟩ = true := by
      simp [Exchange.casts]
    have hq : Question.prepare k c.id ∈ es.map (·.question) := List.mem_map.mpr ⟨_, he, rfl⟩
    rw [ha] at hq
    obtain ⟨p, hp, hk⟩ := List.mem_map.mp hq
    cases hk
    refine List.mem_map.mpr ⟨p, ?_, rfl⟩
    rw [List.nil_append]
    exact List.mem_filter.mpr ⟨hp, List.any_eq_true.mpr ⟨_, he, hcasts⟩⟩

/-- What may be said once the decision is written: nobody votes or is told to roll back. -/
def Forward (c : Completion) (es : List Exchange) : Prop :=
  ∀ e ∈ es, (∀ k i, e.question ≠ .prepare k i) ∧ ∀ k, e.question ≠ .rollback k c.id

lemma Forward.of_prefix (h : Forward c es) (hp : es₁ <+: es) : Forward c es₁ :=
  fun e he => h e (hp.subset he)

lemma Forward.append (h₁ : Forward c es₁) (h₂ : Forward c es₂) : Forward c (es₁ ++ es₂) :=
  fun e he => (List.mem_append.mp he).elim (h₁ e) (h₂ e)

lemma forward_recording (c : Completion) (d : Decision) (pending : List ResourceId) (time : UInt64)
    (a : Except StorageError Unit) : Forward c [c.recording d pending time a] := by
  intro e he
  obtain rfl := List.mem_singleton.mp he
  simp [recording]

lemma Notifies.forward {outcome : Status} (h : Notifies outcome es) : Forward c es := by
  intro e he
  obtain ⟨x, hx⟩ := h.question e he
  rw [hx]
  simp

lemma Notifies.apart {outcome : Status} (h : Notifies outcome es) :
    ∀ e ∈ es, e.question.isAboutLog = false := by
  intro e he
  obtain ⟨x, hx⟩ := h.question e he
  rw [hx]
  rfl

/-- A history in which the vote was won and the outcome is still open. -/
structure Won (c : Completion) (prepared : List Participant) (H : List Exchange) : Prop where
  withholds : ∀ e ∈ H, e.Withholds c.id
  not_rollback : ∀ e ∈ H, ∀ k, e.question ≠ .rollback k c.id
  holders : ∀ rid, holds c.id rid H = true → rid ∈ prepared.map (·.id)

variable {H t : List Exchange}

/-- Everybody was asked for a vote, and the vote is won. -/
lemma Votes.wins {lastAgent : Option Participant} {befores : List Exchange}
    (h : Votes c lastAgent [] ps es (.ok prepared)) (hd : (ps.map (·.adapter)).Nodup)
    (hb : Readies befores) : Won c prepared (befores ++ es) where
  withholds e he := by
    obtain ⟨ha, -⟩ := h.won rfl hd
    exact (List.mem_append.mp he).elim (hb.withholds e) (ha.withholds e)
  not_rollback e he k hk := by
    obtain ⟨ha, -⟩ := h.won rfl hd
    rcases List.mem_append.mp he with he | he
    · obtain ⟨x, hx⟩ := hb e he
      rw [hk] at hx
      cases hx
    · have hq : e.question ∈ es.map (·.question) := List.mem_map_of_mem he
      rw [ha] at hq
      obtain ⟨p, -, hp⟩ := List.mem_map.mp hq
      rw [hk] at hp
      cases hp
  holders _ hh := h.holders hd hb hh

/-- The decision is on record, with all pending who voted to commit. -/
lemma Won.recorded (h : Won c prepared H) (time : UInt64)
    (hd : ∀ r? : Option LogRecord, durable c.id r? t = r?) (hf : Forward c t) :
    Consistent c.id
      (H ++ c.recording .committed (prepared.map (·.id)) time (.ok ()) :: t) := by
  have hforward : Forward c (c.recording .committed (prepared.map (·.id)) time (.ok ()) :: t) :=
    (forward_recording c _ _ _ _).append hf
  refine consistent_of_recorded (r := ⟨c.id, .committed, prepared.map (·.id), time⟩) ?_ rfl ?_ ?_ ?_
  · rw [durable_append, durable_cons, hd]
    simp [recording, Exchange.writes]
  · intro e he
    exact (List.mem_append.mp he).elim (h.not_rollback e) fun he => (hforward e he).2
  · exact fun e he => (hforward e he).1
  · exact fun rid hh _ => .inl (h.holders rid hh)

/-- Those who did not confirm it are on record. -/
lemma Won.told (h : Won c prepared H) (time time' : UInt64)
    (ht : Tells (c.committing false) .heuristicCommit prepared es fs)
    (hd : ∀ r? : Option LogRecord, durable c.id r? t = r?) (hf : Forward c t)
    (hes : Forward c es) :
    Consistent c.id (H ++ (c.recording .committed (prepared.map (·.id)) time (.ok ()) :: es ++
      c.recording .committed (fs.map (·.resource)) time' (.ok ()) :: t)) := by
  have hforward := (((forward_recording c .committed (prepared.map (·.id)) time (.ok ())).append
    hes).append ((forward_recording c .committed (fs.map (·.resource)) time' (.ok ())).append hf))
  refine consistent_of_recorded (r := ⟨c.id, .committed, fs.map (·.resource), time'⟩) ?_ rfl ?_ ?_ ?_
  · -- the second record has taken the place of the first
    rw [durable_append, durable_append, durable_cons, hd]
    simp [recording, Exchange.writes]
  · intro e he
    exact (List.mem_append.mp he).elim (h.not_rollback e) fun he => (hforward e he).2
  · exact fun e he => (hforward e he).1
  · -- who holds the transaction voted to commit, and so it was told
    intro rid hh hsettled
    obtain ⟨p, hp, rfl⟩ := List.mem_map.mp (h.holders rid hh)
    have hmem : ∀ a, c.committing false p a ∈ es → c.committing false p a ∈
        c.recording .committed (prepared.map (·.id)) time (.ok ()) :: es ++
          c.recording .committed (fs.map (·.resource)) time' (.ok ()) :: t :=
      fun a ha => List.mem_append_left _ (List.mem_cons_of_mem _ ha)
    rcases ht.covers hp with hp | hp | hp
    · exact .inl hp
    · -- it confirmed, and holds nothing any more
      have hs := hsettled _ (hmem _ hp)
      simp [committing, Exchange.settles, Exchange.applies, Participant.id] at hs
    · refine .inr ⟨_, hmem _ hp, ?_⟩
      simp [committing, Exchange.acknowledges, Participant.id]

lemma Tells.forward (h : Tells (c.committing false) .heuristicCommit prepared es fs) :
    Forward c es ∧ ∀ e ∈ es, e.question.isAboutLog = false := by
  constructor
  · intro e he
    obtain ⟨p, a, rfl⟩ := h.question e he
    simp [committing]
  · intro e he
    obtain ⟨p, a, rfl⟩ := h.question e he
    rfl

/-- Wherever it is cut short, what carries out the decision is consistent. -/
lemma CarriesOut.consistent {lastAgent : Option Participant} {x : Except TxError Unit}
    (h : CarriesOut c lastAgent prepared es x) (hw : Won c prepared H) (ht : t <+: es) :
    Consistent c.id (H ++ t) := by
  have hnil : Consistent c.id (H ++ []) := by
    rw [List.append_nil]
    exact consistent_of_withholds hw.withholds
  cases h with
  | unwritten time e h =>
    -- the decision could not be written, and what follows is a rollback
    apply consistent_of_withholds
    intro e' he'
    rcases List.mem_append.mp he' with he' | he'
    · exact hw.withholds e' he'
    · rcases List.mem_cons.mp (ht.subset he') with rfl | he'
      · exact withholds_recording (.inr ⟨e, rfl⟩)
      · exact h.withholds e' he'
  | nobody time _ h =>
    rcases List.prefix_cons_iff.mp ht with rfl | ⟨t₁, rfl, ht₁⟩
    · exact hnil
    · exact hw.recorded time (fun r? => durable_of_apart fun e he => h.apart e (ht₁.subset he))
        (h.forward.of_prefix ht₁)
  | @told es₁ es₂ fs time time' a _ h₁ h₂ =>
    obtain ⟨hforward, hapart⟩ := h₁.forward
    rcases prefix_append_cases ht with ht₁ | ⟨t₁, rfl, ht₁⟩
    · -- cut before the second record: of those who were told all are pending still
      rcases List.prefix_cons_iff.mp ht₁ with rfl | ⟨t₂, rfl, ht₂⟩
      · exact hnil
      · exact hw.recorded time (fun r? => durable_of_apart fun e he => hapart e (ht₂.subset he))
          (hforward.of_prefix ht₂)
    · -- cut behind it: only those are pending who did not confirm, if it was written
      rcases List.prefix_cons_iff.mp ht₁ with rfl | ⟨t₂, rfl, ht₂⟩
      · rw [List.append_nil]
        exact hw.recorded time (fun r? => durable_of_apart hapart) hforward
      · have hlast : ∀ r? : Option LogRecord, durable c.id r? t₂ = r? := fun r? =>
          durable_of_apart fun e he => h₂.apart e (ht₂.subset he)
        cases a with
        | error e =>
          rw [List.cons_append]
          refine hw.recorded time (fun r? => ?_) (hforward.append ?_)
          · rw [durable_append, durable_of_apart hapart, durable_cons, hlast]
            rfl
          · exact (forward_recording c _ _ _ _).append (h₂.forward.of_prefix ht₂)
        | ok u => exact hw.told time time' h₁ hlast (h₂.forward.of_prefix ht₂) hforward

/-- Wherever it is cut short, a commit of participants that all vote is consistent. -/
lemma Commits.consistent (h : Commits c ps es) (hd : (ps.map (·.adapter)).Nodup)
    (htwo : ∀ p ∈ ps, p.twoPhase = true) (ht : t <+: es) : Consistent c.id t := by
  obtain ⟨befores, rest, rfl, (hb : Readies befores), hrest⟩ := h
  -- if nothing decides to commit, no part of it does
  have hundecided : (∀ e ∈ rest, e.Withholds c.id) → Consistent c.id t := fun hr =>
    consistent_of_withholds fun e he =>
      (List.mem_append.mp (ht.subset he)).elim (hb.withholds e) (hr e)
  -- all vote, so that there is no last agent
  have hnone : ps.find? (!·.twoPhase) = none := by
    rw [List.find?_eq_none]
    intro p hp
    simp [htwo p hp]
  have hall : ps.filter (·.twoPhase) = ps := List.filter_eq_self.mpr htwo
  rcases hrest with ⟨fs, hr⟩ | ⟨x, hr⟩
  · exact hundecided hr.withholds
  · cases hr with
    | lost h =>
      obtain ⟨qs, es₁, es₂, targets, fs, rfl, -, ha, hr, -⟩ := h.lost rfl
      exact hundecided fun e he => (List.mem_append.mp he).elim (ha.withholds e) (hr.withholds e)
    | marked _ hv hr =>
      -- the vote was won, and yet all are told to roll back
      rw [hall] at hv
      obtain ⟨ha, -⟩ := hv.won rfl hd
      exact hundecided fun e he => (List.mem_append.mp he).elim (ha.withholds e) (hr.withholds e)
    | refused _ hdec =>
      rw [hnone] at hdec
      cases hdec
    | @decided es₁ es₂ es₃ prepared x hv hdec hc =>
      -- only here is the decision written; whatever comes before it withholds it
      rw [hnone] at hdec hc hv
      rw [hall] at hv
      cases hdec
      rw [List.nil_append, ← List.append_assoc] at ht
      have hw := hv.wins hd hb
      rcases prefix_append_cases ht with ht₁ | ⟨t₁, rfl, ht₁⟩
      · exact consistent_of_withholds fun e he => hw.withholds e (ht₁.subset he)
      · exact hc.consistent hw ht₁

end Completion

namespace Machine

variable {M : Machine} {x : Request} {es : List Exchange} {log : LogRef} {ps : List Pass}

/-- Atomicity across crashes. A commit among participants that all vote is cut short anywhere, and
passes of recovery follow, each of which may be cut short as well. If the log is faithful and the
resources are truthful, then the outcome is mixed only where a resource, other than one that has
committed, is rolled back that claims to have committed on its own, after the log has lost the
decision. And after a pass in which all participants have an adapter and every call succeeds, all
that voted to commit have applied the same outcome, unless it is mixed. -/
theorem mixed_after_crash_iff (hM : M.Reachable) (hx : x ∈ M.requests) (hc : x.how = .commit)
    (htwo : ∀ p ∈ (M.system.tx x.tx).participants, p.twoPhase = true)
    (hps : 2 ≤ (M.system.tx x.tx).participants.length) (hes : x.Transcript es)
    (hbegun : ∀ p ∈ ps, p.Begun log)
    (hf : Faithful (M.system.tx x.tx).id none (es ++ history ps))
    (ht : Truthful (M.system.tx x.tx).id (es ++ history ps)) :
    (Mixed (M.system.tx x.tx).id (es ++ history ps) ↔
      ∃ rid rid', rid ≠ rid' ∧
        Applied (M.system.tx x.tx).id rid .committed (es ++ history ps) ∧
        Betrayed (M.system.tx x.tx).id rid' (es ++ history ps)) ∧
    ∀ ps₁ p, ps = ps₁ ++ [p] → p.Whole log → p.Smooth →
      (∀ q ∈ (M.system.tx x.tx).participants, (p.registry.get? q.id).isSome) →
      Mixed (M.system.tx x.tx).id (es ++ history ps) ∨
        ∃ d, ∀ rid, (∃ e ∈ es, e.votes (M.system.tx x.tx).id rid = true) →
          Applied (M.system.tx x.tx).id rid d (es ++ history ps) := by
  obtain ⟨hd, hcourse⟩ := hM.commits hx hc (.inl hps) hes
  have hconsistent : Consistent (M.system.tx x.tx).id es := by
    rcases hcourse with rfl | ⟨c, es', hid, h⟩
    · exact consistent_of_withholds (by simp)
    · rw [← hid]
      exact h.consistent hd htwo (List.prefix_append ..)
  refine ⟨(hconsistent.history hbegun hf ht).mixed_iff, ?_⟩
  rintro ps₁ p rfl hwhole hsmooth hall
  apply mixed_or_uniform
  intro rid hv
  -- who voted is a participant, and so it has an adapter
  obtain ⟨a, ha⟩ : ∃ a, p.registry.get? rid = some a := by
    rcases hcourse with rfl | ⟨c, es', hid, h⟩
    · obtain ⟨e, he, -⟩ := hv
      cases he
    · obtain ⟨e, he, hv⟩ := hv
      obtain ⟨k, rfl, rfl⟩ := Exchange.votes_iff.mp hv
      have haddressed := (h.orderly hd).addressed _ (List.mem_append_left es' he) c.id k
        (.inl (by rw [hid]; simp [Question.asked?]))
      obtain ⟨q, hq, rfl⟩ := List.mem_map.mp haddressed.2
      exact Option.isSome_iff_exists.mp (hall q hq)
  have hhistory : history (ps₁ ++ [p]) = history ps₁ ++ p.exchanges := by simp [history]
  rw [hhistory, ← List.append_assoc] at hf ht ⊢
  -- after the last pass it holds nothing, so that its vote was settled on the way
  have hnot := hwhole.settled hsmooth hf.right ht ha
  obtain ⟨e, he, hv⟩ := hv
  have hvoted : ∃ e ∈ es ++ history ps₁ ++ p.exchanges,
      e.votes (M.system.tx x.tx).id rid = true :=
    ⟨e, List.mem_append_left _ (List.mem_append_left _ he), hv⟩
  obtain ⟨e, he, hs⟩ := settled_of_not_holds hvoted hnot
  rw [Exchange.settles, Bool.or_eq_true] at hs
  rcases hs with hs | hs
  · exact .inl ⟨e, he, hs⟩
  · exact .inr ⟨e, he, hs⟩

/-! ### Two crashes -/

/-- Two resources take part in a transaction. -/
def joined : Machine :=
  let begun := ((initial 0 0).operate (.addManager {} 0)).operate (.begin 0 none)
  (begun.operate (.enlist 0 { ref := 0, id := ⟨"a"⟩ })).operate (.enlist 0 { ref := 1, id := ⟨"b"⟩ })

lemma reachable_joined : joined.Reachable :=
  ((((reachable_initial 0 0).operate _).operate _).operate _).operate _

/-- The adapters of both. -/
def both : Registry := [{ ref := 0, id := ⟨"a"⟩ }, { ref := 1, id := ⟨"b"⟩ }]

/-- The commit is cut short when the decision has been written and nobody knows of it. -/
def interrupted : Machine :=
  (answer Dialogue.someAnswer 0)^[11] (joined.request .commit 0 0)

/-- The log holds some records, and everything succeeds. -/
def resuming (rs : List LogRecord) : (q : Question) → q.Answer
  | .readAll _ => .ok rs
  | q => Dialogue.someAnswer q

/-- The pass that follows. -/
def resumed : Pass :=
  .of 0 both (resuming [⟨(interrupted.system.tx 0).id, .committed, [⟨"a"⟩, ⟨"b"⟩], 0⟩])

theorem mixed_after_crash_iff_interrupted :
    interrupted.requests.map (·.exchanges.length) = [3] ∧
    ∀ x ∈ interrupted.requests,
      (Mixed (interrupted.system.tx x.tx).id (x.exchanges ++ history [resumed]) ↔
        ∃ rid rid', rid ≠ rid' ∧
          Applied (interrupted.system.tx x.tx).id rid .committed (x.exchanges ++ history [resumed]) ∧
          Betrayed (interrupted.system.tx x.tx).id rid' (x.exchanges ++ history [resumed])) ∧
      (Mixed (interrupted.system.tx x.tx).id (x.exchanges ++ history [resumed]) ∨
        ∃ d, ∀ rid, (∃ e ∈ x.exchanges, e.votes (interrupted.system.tx x.tx).id rid = true) →
          Applied (interrupted.system.tx x.tx).id rid d (x.exchanges ++ history [resumed])) := by
  have hM : interrupted.Reachable := (reachable_joined.request ..).answers ..
  have hwhole : resumed.Whole 0 := Pass.whole_of ..
  have hsmooth : resumed.Smooth := by
    have hall : ∀ e ∈ resumed.exchanges, e.isOk = true := by decide +kernel
    exact hall
  have hall : ∀ x ∈ interrupted.requests, x.how = .commit ∧
      (∀ p ∈ (interrupted.system.tx x.tx).participants, p.twoPhase = true) ∧
      2 ≤ (interrupted.system.tx x.tx).participants.length ∧
      Faithful (interrupted.system.tx x.tx).id none (x.exchanges ++ history [resumed]) ∧
      Truthful (interrupted.system.tx x.tx).id (x.exchanges ++ history [resumed]) ∧
      ∀ q ∈ (interrupted.system.tx x.tx).participants, (resumed.registry.get? q.id).isSome := by
    decide +kernel
  refine ⟨by decide +kernel, fun x hx => ?_⟩
  obtain ⟨hhow, htwo, hps, hf, ht, hregistered⟩ := hall x hx
  have hbegun : ∀ p ∈ [resumed], p.Begun 0 := by
    intro p hp
    obtain rfl := List.mem_singleton.mp hp
    exact hwhole.begun
  obtain ⟨hiff, huniform⟩ := mixed_after_crash_iff hM hx hhow htwo hps (.inl rfl) hbegun hf ht
  exact ⟨hiff, huniform [] resumed rfl hwhole hsmooth hregistered⟩

/-- The second resource claims to have committed on its own whenever it is told to commit, and
reports the transaction nevertheless. -/
def claiming (id : TxId) (rs : List LogRecord) : (q : Question) → q.Answer
  | .commit k _ _ => if k.ref = 1 then .error .heuristicCommit else .ok ()
  | .readAll _ => .ok rs
  | .inDoubt k => .ok (if k.ref = 1 then [id] else [])
  | q => Dialogue.someAnswer q

/-- The commit comes to its end. -/
def claimed : Machine :=
  (answer (claiming .nil []) 0)^[40] (joined.request .commit 0 0)

/-- One pass finds that everybody has confirmed the commit, the next one finds nothing. -/
def claimedPasses : List Pass :=
  let id := (claimed.system.tx 0).id
  [.of 0 both (claiming id [.resolved id .committed 0]), .of 0 both (claiming id [])]

/-- Commits are not atomic across crashes. -/
theorem not_atomic :
    ¬∀ (M : Machine) (x : Request) (es : List Exchange) (log : LogRef) (ps : List Pass),
      M.Reachable → x ∈ M.requests → x.how = .commit →
      (∀ p ∈ (M.system.tx x.tx).participants, p.twoPhase = true) →
      2 ≤ (M.system.tx x.tx).participants.length →
      ((M.system.tx x.tx).participants.map (·.id)).Nodup → x.Transcript es →
      (∀ p ∈ ps, p.Begun log) → Faithful (M.system.tx x.tx).id none (es ++ history ps) →
      Truthful (M.system.tx x.tx).id (es ++ history ps) →
      ¬Mixed (M.system.tx x.tx).id (es ++ history ps) := by
  intro h
  have hM : claimed.Reachable := (reachable_joined.request ..).answers ..
  have hall : ∀ x ∈ claimed.requests, x.how = .commit ∧
      (∀ p ∈ (claimed.system.tx x.tx).participants, p.twoPhase = true) ∧
      2 ≤ (claimed.system.tx x.tx).participants.length ∧
      ((claimed.system.tx x.tx).participants.map (·.id)).Nodup ∧
      Faithful (claimed.system.tx x.tx).id none (x.exchanges ++ history claimedPasses) ∧
      Truthful (claimed.system.tx x.tx).id (x.exchanges ++ history claimedPasses) ∧
      Applied (claimed.system.tx x.tx).id ⟨"a"⟩ .committed (x.exchanges ++ history claimedPasses) ∧
      Applied (claimed.system.tx x.tx).id ⟨"b"⟩ .rolledBack
        (x.exchanges ++ history claimedPasses) := by
    decide +kernel
  have hbegun : ∀ p ∈ claimedPasses, p.Begun 0 := by
    intro p hp
    rcases List.mem_pair.mp hp with rfl | rfl
    · exact (Pass.whole_of ..).begun
    · exact (Pass.whole_of ..).begun
  obtain ⟨x, hx⟩ : ∃ x, x ∈ claimed.requests := List.exists_mem_of_length_pos (by decide +kernel)
  obtain ⟨hhow, htwo, hps, hnodup, hf, ht, hcommitted, hrolledBack⟩ := hall x hx
  exact h claimed x x.exchanges 0 claimedPasses hM hx hhow htwo hps hnodup (.inl rfl) hbegun hf ht
    ⟨⟨"a"⟩, ⟨"b"⟩, by decide, hcommitted, hrolledBack⟩

end Machine

end TwoPhaseCommit
