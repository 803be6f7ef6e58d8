import TwoPhaseCommit.Proofs.History

/-!
# Reversed commits

Passes of recovery over one log, one after the other. A recorded commit is told in every pass that
finds its record. But a pass drops the record of a transaction as soon as all its pending
participants have confirmed the outcome, or if there are none, and only then asks the adapters;
whoever reports the transaction in a later pass is told to roll back.
-/

namespace TwoPhaseCommit

open LogRecord (latest?)

/-- A pass of recovery. -/
structure Pass where
  registry : Registry
  exchanges : List Exchange

/-- What is said in passes, one after the other. -/
def history (ps : List Pass) : List Exchange := ps.flatMap (·.exchanges)

@[simp] lemma history_nil : history [] = [] := rfl

@[simp] lemma history_cons (p : Pass) (ps : List Pass) :
    history (p :: ps) = p.exchanges ++ history ps := rfl

namespace Pass

variable {log : LogRef} {id : TxId} {r : LogRecord} {p : Pass} {ps : List Pass}

/-- The pass has come to its end. -/
def Whole (log : LogRef) (p : Pass) : Prop :=
  ∃ result, (Recovery.recover log p.registry).Says p.exchanges result

/-- Somebody is told to roll a transaction back. -/
def Reverses (id : TxId) (p : Pass) : Prop :=
  ∃ e ∈ p.exchanges, ∃ k, e.question = .rollback k id

/-- Somebody reports a transaction. -/
def Reports (id : TxId) (p : Pass) : Prop :=
  ∃ k reported, ⟨.inDoubt k, .ok reported⟩ ∈ p.exchanges ∧ id ∈ reported

/-- The record of a transaction is dropped. -/
def Forgets (id : TxId) (p : Pass) : Prop := Recovery.Forgets p.registry id p.exchanges

/-- A pass that finds no record rolls back exactly what is reported. -/
lemma Whole.of_none (h : p.Whole log) (hf : Faithful id none p.exchanges) :
    (p.Reverses id ↔ p.Reports id) ∧ durable id none p.exchanges = none := by
  obtain ⟨result, h⟩ := h
  have hpass := Recovery.says_recover h
  rw [← List.append_nil p.exchanges] at hpass
  have hattends := hpass.attends hf
  rw [List.append_nil] at hpass
  refine ⟨⟨?_, ?_⟩, ?_⟩
  · rintro ⟨e, he, k, hk⟩
    obtain ⟨pre, post, hsplit⟩ := List.append_of_mem he
    obtain ⟨x, rfl⟩ := Recovery.exists_delivery (d := .rolledBack) hk
    rcases hattends.told pre _ post hsplit k _ x rfl with ⟨q, hq, -⟩ | ⟨-, -, reported, hr, hid⟩
    · cases hq
    · exact ⟨k, reported, hsplit ▸ List.mem_append_left _ hr, hid⟩
  · rintro ⟨k, reported, hr, hid⟩
    rcases hpass.reports hf hr hid with ⟨q, hq, -⟩ | ⟨d, x, hx⟩
    · cases hq
    · obtain ⟨pre, post, hsplit⟩ := List.append_of_mem hx
      rcases hattends.told pre _ post hsplit k d x rfl with ⟨q, hq, -⟩ | ⟨-, rfl, -⟩
      · cases hq
      · exact ⟨_, hx, k, rfl⟩
  · exact hattends.unrecorded

/-- A pass that finds the record of a commit does not reverse it, and keeps it or drops it. -/
lemma Whole.of_committed (h : p.Whole log) (hc : r.decision = .committed)
    (hf : Faithful id (some r) p.exchanges) :
    ¬p.Reverses id ∧ (p.Forgets id ↔ durable id (some r) p.exchanges = none) ∧
      ∀ q ∈ durable id (some r) p.exchanges, q.decision = .committed := by
  obtain ⟨result, h⟩ := h
  have hpass := Recovery.says_recover h
  refine ⟨?_, hpass.forgets_iff hf, ?_⟩
  all_goals
    rw [← List.append_nil p.exchanges] at hpass
    have hattends := hpass.attends hf
  · rintro ⟨e, he, k, hk⟩
    exact hattends.not_rollback hc he k hk
  · intro q hq
    obtain ⟨q', hq', hd⟩ := hattends.keeps.1 q hq
    obtain rfl := Option.some.inj hq'
    exact hd.trans hc

/-- Once its record is dropped a transaction is rolled back by whoever reports it. -/
lemma reverses_iff_reports (hps : ∀ p ∈ ps, p.Whole log) (hf : Faithful id none (history ps)) :
    (∃ p ∈ ps, p.Reverses id) ↔ ∃ p ∈ ps, p.Reports id := by
  induction ps with
  | nil => simp
  | cons p ps ih =>
    rw [List.forall_mem_cons] at hps
    rw [history_cons] at hf
    obtain ⟨hiff, hnone⟩ := hps.1.of_none hf.left
    have hlater := hf.right
    rw [hnone] at hlater
    rw [List.exists_mem_cons_iff, List.exists_mem_cons_iff, hiff, ih hps.2 hlater]

/-- When a recorded commit is reversed: one pass drops its record, and in a later one an adapter
reports the transaction. -/
theorem reverses_iff {rs : List LogRecord} (hps : ∀ p ∈ ps, p.Whole log)
    (hr : latest? id rs = some r) (hc : r.decision = .committed)
    (hf : Faithful id (latest? id rs) (history ps)) :
    (∃ p ∈ ps, p.Reverses id) ↔
      ∃ ps₁ p ps₂, ps = ps₁ ++ p :: ps₂ ∧ p.Forgets id ∧ ∃ q ∈ ps₂, q.Reports id := by
  rw [hr] at hf
  clear hr
  induction ps generalizing r with
  | nil => simp
  | cons p ps ih =>
    rw [List.forall_mem_cons] at hps
    rw [history_cons] at hf
    obtain ⟨hnot, hforgets, hkeeps⟩ := hps.1.of_committed hc hf.left
    have hlater := hf.right
    rw [List.exists_mem_cons_iff, or_iff_right hnot]
    cases hd : durable id (some r) p.exchanges with
    | none =>
      -- the record has been dropped by this pass, so any later report is answered by a rollback
      rw [hd] at hlater
      rw [reverses_iff_reports hps.2 hlater]
      constructor
      · intro hreports
        exact ⟨[], p, ps, rfl, hforgets.mpr hd, hreports⟩
      · rintro ⟨ps₁, p', ps₂, hsplit, -, q, hq, hreports⟩
        refine ⟨q, ?_, hreports⟩
        rcases List.cons_eq_append_iff.mp hsplit with ⟨rfl, hp⟩ | ⟨ps₁, rfl, rfl⟩
        · obtain ⟨-, rfl⟩ := List.cons.inj hp
          exact hq
        · exact List.mem_append_right _ (List.mem_cons_of_mem _ hq)
    | some q =>
      -- the record is still held, and the passes that follow are in the same place
      rw [hd] at hlater
      rw [ih hps.2 (hkeeps q hd) hlater]
      constructor
      · rintro ⟨ps₁, p', ps₂, rfl, hf', hreports⟩
        exact ⟨p :: ps₁, p', ps₂, rfl, hf', hreports⟩
      · rintro ⟨ps₁, p', ps₂, hsplit, hf', hreports⟩
        rcases List.cons_eq_append_iff.mp hsplit with ⟨rfl, hp⟩ | ⟨ps₁, rfl, rfl⟩
        · obtain ⟨rfl, -⟩ := List.cons.inj hp
          rw [hforgets, hd] at hf'
          cases hf'
        · exact ⟨ps₁, p', ps₂, rfl, hf', hreports⟩

/-! ### A reversed commit -/

/-- A pass in which a question is answered the same whenever it is put. -/
def of (log : LogRef) (g : Registry) (reply : (q : Question) → q.Answer) : Pass :=
  ⟨g, ((Recovery.recover log g { clock := 0 }).play reply).1⟩

lemma whole_of (log : LogRef) (g : Registry) (reply : (q : Question) → q.Answer) :
    (of log g reply).Whole log := by
  obtain ⟨s, hs⟩ := Dialogue.ends_play reply (Recovery.recover log g { clock := 0 })
  exact ⟨_, _, _, s, hs⟩

/-- The log holds some records, one adapter reports a transaction, and it cannot commit now. -/
def unready (id : TxId) (rs : List LogRecord) : (q : Question) → q.Answer
  | .readAll _ => .ok rs
  | .inDoubt _ => .ok [id]
  | .commit .. => .error (.unavailable "later")
  | q => Dialogue.someAnswer q

/-- The record says that everybody has committed. The first pass drops it and then hears that
somebody has not; the second pass finds no record. -/
def late (id : TxId) : List Pass :=
  let g : Registry := [{ ref := 0, id := ⟨"a"⟩ }]
  [of 0 g (unready id [.resolved id .committed 0]), of 0 g (unready id [])]

lemma late_whole : ∀ p ∈ late (.mint 0 0), p.Whole 0 := by
  intro p hp
  rcases List.mem_pair.mp hp with rfl | rfl
  · exact whole_of ..
  · exact whole_of ..

lemma late_faithful :
    Faithful (.mint 0 0) (latest? (.mint 0 0) [.resolved (.mint 0 0) .committed 0])
      (history (late (.mint 0 0))) := by
  decide +kernel

lemma late_reverses : ∃ p ∈ late (.mint 0 0), p.Reverses (.mint 0 0) :=
  ⟨_, List.mem_cons_of_mem _ (List.mem_singleton_self _), _,
    List.mem_cons_of_mem _ (List.mem_cons_of_mem _ (List.mem_singleton_self _)), _, rfl⟩

theorem reverses_iff_late :
    (∃ p ∈ late (.mint 0 0), p.Reverses (.mint 0 0)) ∧
    ∃ ps₁ p ps₂, late (.mint 0 0) = ps₁ ++ p :: ps₂ ∧ p.Forgets (.mint 0 0) ∧
      ∃ q ∈ ps₂, q.Reports (.mint 0 0) :=
  ⟨late_reverses, (reverses_iff late_whole rfl rfl late_faithful).mp late_reverses⟩

/-- A recorded commit may be reversed. -/
theorem not_irreversible :
    ¬∀ (log : LogRef) (id : TxId) (rs : List LogRecord) (r : LogRecord) (ps : List Pass),
      (∀ p ∈ ps, p.Whole log) → latest? id rs = some r → r.decision = .committed →
      Faithful id (latest? id rs) (history ps) → ∀ p ∈ ps, ¬p.Reverses id := by
  intro h
  obtain ⟨p, hp, hr⟩ := late_reverses
  exact h 0 _ _ _ _ late_whole rfl rfl late_faithful p hp hr

end Pass

end TwoPhaseCommit
