import TwoPhaseCommit.Proofs.Enlistment
import TwoPhaseCommit.Proofs.Omission

/-!
# Participation

Enlistments and delistings keep the participants of a transaction in order. Nobody takes part twice,
at most one has no first phase, and nobody leaves (`Machine.Participation`). What a completion asks
and comes to depends on who was enlisted and on failures that were reported, and not on how else
associations were ended and taken up again.
-/

namespace TwoPhaseCommit

open Transaction (Enlisted.matches)

/-! ### Nobody takes part twice -/

namespace Transaction

variable {t u : Transaction} {a : Adapter}

/-- At most one participant has no first phase, and none stands for the same resource as one that
came in later. -/
structure Proper (t : Transaction) : Prop where
  lastAgent : (t.adapters.filter (!·.twoPhase)).length ≤ 1
  distinct : t.adapters.Pairwise fun a b => a.ref ≠ b.ref ∧ a.isSame b.toAdapterKey = false

/-- A new participant is none of those who take part, and not a second one without a first phase. -/
lemma new_of_enlist (h : t.enlist a = .ok (true, u)) :
    (∀ b ∈ t.adapters, b.ref ≠ a.ref ∧ b.isSame a.toAdapterKey = false) ∧
      (a.twoPhase = false → ∀ b ∈ t.adapters, b.twoPhase = true) := by
  unfold enlist at h
  split at h
  next => cases h
  next =>
    split at h
    next => cases h
    next hnone =>
      split at h
      next => cases h
      next hagent =>
        refine ⟨fun b hb => ?_, fun hphase b hb => ?_⟩
        · obtain ⟨e, he, rfl⟩ := List.mem_map.mp hb
          have hmatch := List.any_eq_false.mp (Bool.not_eq_true _ ▸ hnone) e he
          simpa [Enlisted.matches] using hmatch
        · obtain ⟨e, he, rfl⟩ := List.mem_map.mp hb
          rw [hphase, if_neg Bool.false_ne_true, List.find?_eq_none] at hagent
          simpa using hagent e he

/-- It stays so when one comes in. -/
lemma Proper.enlist (h : t.Proper) (ha : t.enlist a = .ok (true, u)) : u.Proper := by
  obtain ⟨hnew, hagent⟩ := new_of_enlist ha
  have hadapters : u.adapters = t.adapters ++ [a] := adapters_enlist ha
  constructor
  · rw [hadapters, List.filter_append, List.length_append]
    cases hp : a.twoPhase with
    | true =>
      simp only [List.filter_cons, hp, Bool.not_true, Bool.false_eq_true, if_false,
        List.filter_nil, List.length_nil]
      exact h.lastAgent
    | false =>
      have hnone : t.adapters.filter (!·.twoPhase) = [] :=
        List.filter_eq_nil_iff.mpr fun b hb => by simp [hagent hp b hb]
      rw [hnone, List.length_nil, Nat.zero_add]
      exact (List.length_filter_le ..).trans le_rfl
  · rw [hadapters, List.pairwise_append]
    refine ⟨h.distinct, List.pairwise_singleton .., fun b hb c hc => ?_⟩
    rw [List.mem_singleton.mp hc]
    exact hnew b hb

/-- Whoever decides by names whether two adapters stand for the same resource tells apart those
that take part. -/
lemma Proper.nodup_ids (h : t.Proper)
    (hnames : ∀ a ∈ t.adapters, ∀ k : AdapterKey, a.isSame k = (a.id == k.id)) :
    (t.adapters.map (·.id)).Nodup := by
  rw [List.Nodup, List.pairwise_map]
  refine h.distinct.imp_of_mem fun {a b} ha _ hab hid => ?_
  rw [hnames a ha, hid, beq_self_eq_true] at hab
  exact Bool.noConfusion hab.2

end Transaction

namespace Machine

variable {M : Machine} {r : TxRef}

/-- What a program may come to. -/
lemma Reachable.proper (hM : M.Reachable) (r : TxRef) : (M.system.tx r).Proper := by
  refine hM.invariant (P := fun M => (M.system.tx r).Proper) (fun clock seed => ?_) ?_
  · exact ⟨Nat.zero_le _, .nil⟩
  · intro M M' hM hP hs
    rcases hM.adapters_step hs r with hsame | ⟨a, t, ha, rfl⟩
    · exact ⟨hsame ▸ hP.lastAgent, hsame ▸ hP.distinct⟩
    · have hr : r < M.system.transactions.size :=
        System.lt_size_of_status (by simp [(Transaction.enlist_ok ha).1])
      change (((Operation.enlist r a).apply M.system).tx r).Proper
      rw [Operation.apply, ha]
      change ((M.system.modifyTx r fun _ => t).tx r).Proper
      rw [System.tx_modifyTx_self _ hr]
      exact hP.enlist ha

/-! ### Who is let in -/

lemma Reachable.adapters_run (hM : M.Reachable) (r : TxRef) (as : List Act) :
    (M.system.tx r).adapters <+: ((M.run as).system.tx r).adapters := by
  by_cases hr : r < M.system.transactions.size
  · exact ((hM.grows (M.steps_run as)).grows r hr).adapters
  · rw [System.tx_of_size_le (not_lt.mp hr)]
    exact List.nil_prefix

/-- An enlistment lets somebody in exactly if it is answered so. -/
lemma joined_iff (a : Adapter) :
    (∃ t, (M.system.tx r).enlist a = .ok (true, t)) ↔
      (M.system.tx r).adapters.length <
        ((M.perform (.operate (.enlist r a))).system.tx r).adapters.length := by
  change _ ↔ _ < (((Operation.enlist r a).apply M.system).tx r).adapters.length
  rw [Operation.apply]
  cases ha : (M.system.tx r).enlist a with
  | error e =>
    refine ⟨?_, fun h => absurd h (lt_irrefl _)⟩
    rintro ⟨t, ht⟩
    cases ht
  | ok x =>
    obtain ⟨new, t⟩ := x
    have hr : r < M.system.transactions.size :=
      System.lt_size_of_status (by simp [(Transaction.enlist_ok ha).1])
    change _ ↔ _ < ((M.system.modifyTx r fun _ => t).tx r).adapters.length
    rw [System.tx_modifyTx_self _ hr, Transaction.adapters_enlist ha]
    cases new with
    | true => simp
    | false => simp

/-- What is promised of those who take part in a transaction. -/
structure Participation (M : Machine) (r : TxRef) : Prop where
  /-- Those who take part stay, and stay where they are. -/
  grows (as : List Act) : (M.system.tx r).adapters <+: ((M.run as).system.tx r).adapters
  lastAgent : ((M.system.tx r).adapters.filter (!·.twoPhase)).length ≤ 1
  distinct : (M.system.tx r).adapters.Pairwise fun a b =>
    a.ref ≠ b.ref ∧ a.isSame b.toAdapterKey = false
  /-- By default names tell participants apart. -/
  names : (∀ a ∈ (M.system.tx r).adapters, ∀ k : AdapterKey, a.isSame k = (a.id == k.id)) →
    ((M.system.tx r).adapters.map (·.id)).Nodup
  joined (a : Adapter) : (∃ t, (M.system.tx r).enlist a = .ok (true, t)) ↔
    (M.system.tx r).adapters.length <
      ((M.perform (.operate (.enlist r a))).system.tx r).adapters.length
  enlist_error (a : Adapter) (e : TxError) : (M.system.tx r).enlist a = .error e →
    M.perform (.operate (.enlist r a)) = M
  delist_error (k : AdapterKey) (flag : DelistFlag) (e : TxError) :
    (M.system.tx r).delist k flag = .error e → M.perform (.operate (.delist r k flag)) = M

lemma Reachable.participation (hM : M.Reachable) (r : TxRef) : M.Participation r where
  grows := hM.adapters_run r
  lastAgent := (hM.proper r).lastAgent
  distinct := (hM.proper r).distinct
  names := (hM.proper r).nodup_ids
  joined := joined_iff
  enlist_error a e h := by rw [Machine.perform, Machine.operate, Operation.apply, h]; rfl
  delist_error k flag e h := by rw [Machine.perform, Machine.operate, Operation.apply, h]; rfl

/-! ### What completions depend on -/

lemma stories_recall {xs ys : List Request} (h : List.Forall₂ Request.Recalls xs ys) :
    xs.map (fun x => (x.tx, x.story)) = ys.map fun y => (y.tx, y.story) := by
  induction h with
  | nil => rfl
  | cons hxy _ ih => rw [List.map_cons, List.map_cons, ih, hxy.tx, hxy.story]

/-- Whatever a program does, its transactions keep their participants in order. And with all acts
left out that only end associations in success, take them up again, or find them ended, the requests
to complete transactions are the same, with all that is asked, written and answered. -/
theorem participants_settled (clock seed : Nat) (as : List Act) :
    let kept := (initial clock seed).without superfluous as
    let M := (initial clock seed).run as
    let N := (initial clock seed).run kept
    (∀ r, M.Participation r) ∧
    M.requests.map (fun x => (x.tx, x.story)) = N.requests.map (fun y => (y.tx, y.story)) ∧
    (∀ r, (M.system.tx r).status = (N.system.tx r).status ∧
      (M.system.tx r).adapters = (N.system.tx r).adapters) ∧
    (initial clock seed).transcript as = (initial clock seed).transcript kept := by
  intro kept M N
  have hM : M.Reachable := (reachable_initial clock seed).run as
  obtain ⟨h, htranscript⟩ := (recalls_initial clock seed).run as
  refine ⟨hM.participation, stories_recall h.requests, fun r => ?_, htranscript⟩
  exact ⟨(h.system.tx r).status, (h.system.tx r).adapters⟩

/-- What is answered when all agree, and more often than needed. -/
def agreeing : List Act :=
  (List.replicate 12 [.answer 0 .turned, .answer 0 (.vote (.ok .commit)),
    .answer 0 (.done (.ok ())), .answer 0 (.written (.ok ()))]).flatten

/-- One of two participants is associated again, the other is not. -/
def parted : List Act :=
  [.operate (.addManager {} 0), .operate (.begin 0 none),
    .operate (.enlist 0 { ref := 0, id := ⟨"a"⟩ }),
    .operate (.enlist 0 { ref := 1, id := ⟨"b"⟩, twoPhase := false }),
    .operate (.delist 0 { ref := 0, id := ⟨"a"⟩ } .success),
    .operate (.enlist 0 { ref := 0, id := ⟨"a"⟩ }),
    .operate (.delist 0 { ref := 1, id := ⟨"b"⟩ } .success),
    .operate (.delist 0 { ref := 1, id := ⟨"b"⟩ } .fail), .request .commit 0 0] ++ agreeing

theorem participants_settled_parted :
    let kept := (initial 0 0).without superfluous parted
    let M := (initial 0 0).run parted
    let N := (initial 0 0).run kept
    kept.length + 4 = parted.length ∧
    ((M.system.tx 0).adapters.map (·.id)).Nodup ∧ (M.system.tx 0).adapters.length = 2 ∧
    M.requests.map (·.progress.result?) = [some (.ok ())] ∧
    M.requests.map (fun x => (x.tx, x.story)) = N.requests.map (fun y => (y.tx, y.story)) ∧
    (initial 0 0).transcript parted = (initial 0 0).transcript kept := by
  obtain ⟨hjoined, hstories, -, htranscript⟩ := participants_settled 0 0 parted
  have hjoin : (((initial 0 0).run (parted.take 4)).system.tx 0).adapters =
      [{ ref := 0, id := ⟨"a"⟩ }, { ref := 1, id := ⟨"b"⟩, twoPhase := false }] := rfl
  have hlength : (((initial 0 0).run parted).system.tx 0).adapters.length = 2 := by decide +kernel
  have hprefix := ((participants_settled 0 0 (parted.take 4)).1 0).grows (parted.drop 4)
  rw [← run_append, List.take_append_drop, hjoin] at hprefix
  have hadapters : ∀ b ∈ (((initial 0 0).run parted).system.tx 0).adapters, ∀ k : AdapterKey,
      b.isSame k = (b.id == k.id) := by
    rw [← hprefix.eq_of_length hlength.symm]
    intro b hb k
    obtain rfl | rfl := List.mem_pair.mp hb <;> rfl
  refine ⟨?_, (hjoined 0).names hadapters, hlength, ?_, hstories, htranscript⟩
  · decide +kernel
  · decide +kernel

/-- An association is ended in success, and then with a failure. -/
def failedLate : List Act :=
  [.operate (.addManager {} 0), .operate (.begin 0 none),
    .operate (.enlist 0 { ref := 0, id := ⟨"a"⟩ }),
    .operate (.delist 0 { ref := 0, id := ⟨"a"⟩ } .success),
    .operate (.delist 0 { ref := 0, id := ⟨"a"⟩ } .fail), .request .commit 0 0] ++ agreeing

/-- It does not do to leave out only the acts that end associations in success or take them up
again: a failure that is reported later finds the association not ended then, and counts. -/
theorem late_failure_counts :
    ¬∀ (clock seed : Nat) (as : List Act),
      ((initial clock seed).run as).requests.map Request.story =
        ((initial clock seed).run ((initial clock seed).without associates as)).requests.map
          Request.story := by
  intro h
  have hresults := congrArg (List.map fun y => y.result.map fun x => x.isOk) (h 0 0 failedLate)
  revert hresults
  decide +kernel

end Machine

end TwoPhaseCommit
