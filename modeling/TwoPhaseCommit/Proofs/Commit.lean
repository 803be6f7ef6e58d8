import TwoPhaseCommit.Proofs.Outcome

/-!
# Commits in a program

A request that was admitted follows a course of its completion, and the participants of that course
are those of the transaction. So what holds of every beginning of a course holds at every point of a
program, whatever its other tasks do.
-/

namespace TwoPhaseCommit

namespace Completion

variable {c : Completion} {es : List Exchange}

/-! ### From admission to the end -/

/-- A commit with several participants or with a last agent, from beginning to end: callbacks, and
then a rollback of all or a commit in two phases. -/
def Commits (c : Completion) (ps : List Participant) (es : List Exchange) : Prop :=
  ∃ befores rest, es = befores ++ rest ∧ (∀ e ∈ befores, ∃ x, e.question = .beforeCompletion x) ∧
    ((∃ fs, RollsBack c ps rest fs) ∨ ∃ x, TwoPhase c ps rest x)

lemma Commits.orderly {ps : List Participant} (h : Commits c ps es)
    (hd : (ps.map (·.adapter)).Nodup) : Orderly c.log c.id ps es := by
  obtain ⟨befores, rest, rfl, hb, ⟨fs, hr⟩ | ⟨x, hr⟩⟩ := h
  · have hparts : Parts c ps befores [] [] rest :=
      ⟨hd, hb, ⟨[], rfl, List.nil_sublist _⟩, ⟨[], ps, settles_nil, hr.concludes _, hd, fun _ h => h⟩,
        by simp, fun hn => absurd rfl hn⟩
    exact hparts.orderly
  · exact hr.orderly hd hb

/-- Participants that are no case for a commit without a vote. -/
lemma isDirect_eq_false {ps : List Participant}
    (h : 2 ≤ ps.length ∨ ∃ p ∈ ps, p.twoPhase = false) : Transaction.isDirect ps = false := by
  match ps with
  | [] => simp at h
  | [p] => simpa [Transaction.isDirect] using h
  | p :: q :: ps => rfl

lemma Outcome.commits {u : Transaction} {steps : List (System × System)} {x : Except TxError Unit}
    (h : Outcome c u steps .commit es x)
    (hps : 2 ≤ u.participants.length ∨ ∃ p ∈ u.participants, p.twoPhase = false) :
    Commits c u.participants es := by
  cases h with
  | marked _ _ hb h => exact ⟨_, _, rfl, hb, .inl ⟨_, h⟩⟩
  | direct _ hd _ _ _ =>
    rw [isDirect_eq_false hps] at hd
    cases hd
  | voted _ _ _ hb h _ => exact ⟨_, _, rfl, hb, .inr ⟨_, h⟩⟩

end Completion

open Completion (Outcome Settled)

/-! ### At any point of a program -/

namespace Request

variable {x : Request} {s : System} {es : List Exchange}

/-- What a request has said so far: what was answered, and what is asked now, with any answer. -/
def Transcript (x : Request) (es : List Exchange) : Prop :=
  es = x.exchanges ∨ ∃ (s : System) (q : Question)
    (next : System → q.Answer → Dialogue (Except TxError Unit)) (a : q.Answer),
    x.progress = .ask s q next ∧ es = x.exchanges ++ Exchange.note q a

lemma Outside.transcript {id : TxId} (h : x.Outside id) (hes : x.Transcript es) : es = [] := by
  rcases hes with rfl | ⟨s, q, next, a, hp, rfl⟩
  · exact h.silent
  · obtain rfl := h.station.waits hp
    rw [h.silent, Exchange.note_turn, List.append_nil]

/-- If all others leave it alone from now on, a dialogue inside comes to its end with the
participants there are now, and with the reason to roll back if there is one. -/
lemma exists_ends {r : TxRef} {d : Dialogue (Except TxError Unit)}
    (hd : d.Continues (System.Spares r) (System.Works r)
      fun _ t => r < t.transactions.size ∧ Settled (t.tx r))
    (hs : d.system.Spares r s) :
    ∃ es steps t a, d.Runs (System.Spares r) es steps (.done t a) ∧
      (t.tx r).participants = (s.tx r).participants ∧
      ∀ why, (s.tx r).rollbackReason = some why → (t.tx r).rollbackReason = some why := by
  obtain ⟨es, steps, t, a, he, hdone | hworks⟩ :=
    hd.exists_runs (System.Spares.refl r) (fun _ _ _ h h' => h.trans h') hs
  · refine ⟨es, steps, t, a, he, ?_⟩
    rw [hdone] at hd hs
    have hu : (t.tx r).Undisturbed (s.tx r) := hs.undisturbed hd.1
    have hlater := (Completion.stable_concluded ..).keeps hd.2 hu
    have hreason := hu.grows.onward.late hd.2.marks hd.2.ended.stage_le
    exact ⟨hlater.participants.symm, fun why hwhy => hreason.symm.trans hwhy⟩
  · exact ⟨es, steps, t, a, he, Transaction.participants_congr hworks.same.adapters,
      hworks.same.onward.reason⟩

/-- What a request inside has said is the beginning of what a completion says that comes to its
end. -/
lemma Inside.extend (h : x.Inside s) (hes : x.Transcript es) :
    ∃ c es' steps u a, c.tx = x.tx ∧ c.id = (s.tx x.tx).id ∧
      Outcome c u steps x.how (es ++ es') a ∧ u.participants = (s.tx x.tx).participants ∧
      ∀ why, (s.tx x.tx).rollbackReason = some why → u.rollbackReason = some why := by
  obtain ⟨c, t, hf, hi⟩ := h.course
  obtain ⟨y, before, v, steps, hy, ht, -, -, hr⟩ := hf.runs
  have hend : ∀ {es steps u a}, (y t).Runs (System.Spares x.tx) es steps (.done u a) →
      Outcome c (u.tx x.tx) steps x.how es a := by
    intro es steps u a hru
    rw [← hf.tx] at hru ⊢
    exact hy.outcome hf.size ht.early hru
  rw [hf.tx] at hr
  rcases hes with rfl | ⟨s₀, q, next, a, hp, rfl⟩
  · -- what was said ends before the open question: go on from there
    obtain ⟨es', steps', u, b, he, hu⟩ := exists_ends h.continues h.spares
    exact ⟨c, es', _, _, b, hf.tx, hi, hend (hr.trans he), hu⟩
  · -- it ends with an answer to the open question, which is resumed first
    have hcont := h.continues
    have hspares := h.spares
    rw [hp] at hcont hspares hr
    obtain ⟨hw, hc⟩ := hcont s a hspares
    obtain ⟨es', steps', u, b, he, hps, hreason⟩ := exists_ends hc (.refl ..)
    refine ⟨c, es', _, _, b, hf.tx, hi, hend ((hr.snoc hspares a).trans he), ?_, ?_⟩
    · exact hps.trans (Transaction.participants_congr hw.same.adapters)
    · exact fun why hwhy => hreason why (hw.same.onward.reason why hwhy)

end Request

namespace Machine

variable {M : Machine} {x : Request} {es : List Exchange}

/-- What a commit has said so far is the beginning of a complete course of it, unless it has said
nothing. -/
lemma Reachable.commits (hM : M.Reachable) (hx : x ∈ M.requests) (hc : x.how = .commit)
    (hps : 2 ≤ (M.system.tx x.tx).participants.length ∨
      ∃ p ∈ (M.system.tx x.tx).participants, p.twoPhase = false) (hes : x.Transcript es) :
    ((M.system.tx x.tx).participants.map (·.adapter)).Nodup ∧
    (es = [] ∨ ∃ c es', c.id = (M.system.tx x.tx).id ∧
      Completion.Commits c (M.system.tx x.tx).participants (es ++ es')) := by
  obtain ⟨owner, hsound⟩ := hM.sound
  obtain ⟨i, hi⟩ := List.getElem?_of_mem hx
  refine ⟨(hsound.distinct x.tx (hsound.refers i x hi)).nodup, ?_⟩
  by_cases ho : owner x.tx = some i
  · right
    obtain ⟨hin, -⟩ := hsound.inside i x hi ho
    obtain ⟨c, es', steps, u, a, -, hid, houtcome, hu, -⟩ := hin.extend hes
    refine ⟨c, es', hid, ?_⟩
    rw [hc] at houtcome
    rw [← hu] at hps ⊢
    exact houtcome.commits hps
  · exact .inl ((hsound.outside i x hi ho).transcript hes)

/-- Write-ahead and ordering. At every point of every program, whatever is answered and whatever
else is done meanwhile, a commit of a transaction with at least two participants, or with a last
agent, has kept to the order. -/
theorem commit_orderly (hM : M.Reachable) (hx : x ∈ M.requests) (hc : x.how = .commit)
    (hps : 2 ≤ (M.system.tx x.tx).participants.length ∨
      ∃ p ∈ (M.system.tx x.tx).participants, p.twoPhase = false) (hes : x.Transcript es) :
    ∃ log, Orderly log (M.system.tx x.tx).id (M.system.tx x.tx).participants es := by
  obtain ⟨hd, rfl | ⟨c, es', hid, h⟩⟩ := hM.commits hx hc hps hes
  · exact ⟨0, orderly_nil ..⟩
  · have horderly := h.orderly hd
    rw [hid] at horderly
    exact ⟨c.log, horderly.of_prefix (List.prefix_append ..)⟩

/-- Two resources and a last agent take part in a transaction, and all that are asked agree. -/
def agreed : Machine :=
  let begun := ((initial 0 0).operate (.addManager {} 0)).operate (.begin 0 none)
  let enlisted := ((begun.operate (.enlist 0 { ref := 0, id := ⟨"a"⟩ })).operate
    (.enlist 0 { ref := 1, id := ⟨"b"⟩ })).operate
    (.enlist 0 { ref := 2, id := ⟨"c"⟩, twoPhase := false })
  (answer Dialogue.someAnswer 0)^[40] (enlisted.request .commit 0 0)

theorem commit_orderly_agreed :
    agreed.requests.map (·.exchanges.length) = [7] ∧
    (agreed.system.tx 0).status = .committed ∧
    ∀ x ∈ agreed.requests, ∃ log,
      Orderly log (agreed.system.tx x.tx).id (agreed.system.tx x.tx).participants x.exchanges := by
  have hM : agreed.Reachable := (((((((reachable_initial 0 0).operate _).operate _).operate
    _).operate _).operate _).request ..).answers ..
  have hall : ∀ x ∈ agreed.requests, x.how = .commit ∧
      2 ≤ (agreed.system.tx x.tx).participants.length := by decide +kernel
  refine ⟨by decide +kernel, by decide +kernel, fun x hx => ?_⟩
  obtain ⟨hhow, hps⟩ := hall x hx
  exact commit_orderly hM hx hhow (.inl hps) (.inl rfl)

end Machine

end TwoPhaseCommit
