import TwoPhaseCommit.Proofs.Admission

/-!
# The statuses of a transaction

Every step of a program, whoever takes it, leaves the status of a transaction as it is or moves it
along one of the edges of `Status.next`; so a whole program moves it along a path of such edges. A
transaction is prepared only by a completion that has heard the vote of every participant.
-/

namespace TwoPhaseCommit

namespace Status

/-- There is a way from one status to another. -/
abbrev Path : Status → Status → Prop := Relation.ReflTransGen fun s s' => s' ∈ s.next

/-- No edge leads to `active`. -/
lemma Path.ne_active {s s' : Status} (h : s.Path s') (hs : s ≠ .active) : s' ≠ .active := by
  cases h with
  | refl => exact hs
  | @tail u _ _ h =>
    revert h
    cases u <;> cases s' <;> decide

lemma Path.ne_noTransaction {s s' : Status} (h : s.Path s') (hs : s ≠ .noTransaction) :
    s' ≠ .noTransaction := by
  cases h with
  | refl => exact hs
  | @tail u _ _ h =>
    revert h
    cases u <;> cases s' <;> decide

lemma next_eq_nil {s : Status} (h : s.isTerminal = true) : s.next = [] := by
  revert h
  cases s <;> decide

/-- No edge leads on from a final outcome. -/
lemma Path.eq_of_final {s s' : Status} (h : s.Path s') (hs : s.next = []) : s' = s := by
  induction h with
  | refl => rfl
  | tail _ h ih =>
    rw [ih, hs] at h
    cases h

end Status

namespace Transaction

variable {t t' : Transaction}

/-- Bystanders can do no more than mark a transaction. -/
lemma Undisturbed.status_next (h : t.Undisturbed t') (ht : t.Open ∨ t.Taken) :
    t'.status = t.status ∨ t'.status = .markedRollback ∧ t'.status ∈ t.status.next := by
  rcases ht with ho | ht
  · have hstage := h.grows.onward.stage
    rcases ho.2 with hs | hs <;> rcases (h.opens ho).2 with hs' | hs'
    · exact .inl (hs'.trans hs.symm)
    · simp [hs, hs', Status.next]
    · simp [hs, hs', Status.stage] at hstage
    · exact .inl (hs'.trans hs.symm)
  · rcases (h.keeps ht).status with hsame | ⟨hs, hm⟩
    · exact .inl hsame
    · right
      rcases hs with hs | hs <;> simp [hs, hm, Status.next]

end Transaction

/-- Every participant with a first phase has voted to commit, or to have no part in the outcome. -/
def Request.Unanimous (x : Request) (t : Transaction) : Prop :=
  ∀ p ∈ t.participants, p.twoPhase = true →
    ⟨.prepare p.adapter t.id, .ok .commit⟩ ∈ x.exchanges ∨
    ⟨.prepare p.adapter t.id, .ok .readOnly⟩ ∈ x.exchanges

namespace Machine

variable {M M' : Machine} {r : TxRef}

/-! ### One step -/

/-- A step is one of a bystander, an admission, or the act of a completion that was admitted. -/
lemma Reachable.step_cases (hM : M.Reachable) (hs : Step M M') :
    M.system.Bystands M'.system ∨
    (∃ q, q < M.system.transactions.size ∧ (M.system.tx q).Open ∧
      M'.system = M.system.take q) ∨
    ∃ x ∈ M'.requests, x.Accepted ∧ ∃ (c : Completion) (g g' : Diary), c.tx = x.tx ∧
      c.id = (M.system.tx x.tx).id ∧ g.said = x.exchanges ∧ c.Acts g M.system M'.system g' := by
  cases hM.alters hs with
  | operated o => exact .inl (o.touches_apply M.system).bystands
  | opened m hs =>
    rw [hs]
    exact .inl (System.bystands_of_transactions_eq rfl)
  | used h => exact .inl h.bystands
  | harmless h => exact .inl h.bystands
  | admitted hq ho hs => exact .inr (.inl ⟨_, hq, ho, hs⟩)
  | acted hx ha hc hid hsaid h => exact .inr (.inr ⟨_, hx, ha, _, _, _, hc, hid, hsaid, h⟩)

lemma Reachable.open_or_taken (hM : M.Reachable) (hr : r < M.system.transactions.size) :
    (M.system.tx r).Open ∨ (M.system.tx r).Taken := by
  obtain ⟨owner, hsound⟩ := hM.sound
  cases ho : owner r with
  | none => exact .inl (hsound.free r hr ho)
  | some i =>
    obtain ⟨x, hi, rfl⟩ := hsound.held r i ho
    exact .inr (hsound.inside i x hi ho).1.taken_now

/-- What a step does to the status. -/
lemma Reachable.status_step (hM : M.Reachable) (hr : r < M.system.transactions.size)
    (hs : Step M M') :
    (M'.system.tx r).status = (M.system.tx r).status ∨
    (M'.system.tx r).status ∈ (M.system.tx r).status.next ∧
      ((M'.system.tx r).status = .prepared →
        ∃ x ∈ M'.requests, x.tx = r ∧ x.Accepted ∧ x.Unanimous (M'.system.tx r)) := by
  -- the step spares every transaction, takes one, or is the completion's own
  rcases hM.step_cases hs with hb | ⟨q, hq, -, ht⟩ | ⟨x, hx, ha, c, g, g', hc, hid, hsaid, hg⟩
  · rcases ((hb.spares r).undisturbed hr).status_next (hM.open_or_taken hr) with h | ⟨hm, hnext⟩
    · exact .inl h
    · refine .inr ⟨hnext, fun hp => ?_⟩
      rw [hm] at hp
      cases hp
  · left
    rw [ht]
    by_cases hrq : r = q
    · subst hrq
      rw [System.tx_take hr]
    · rw [System.take, System.tx_modifyTx_of_ne _ hrq]
  · by_cases hrc : r = c.tx
    · subst hrc
      have hsame := hg.works.same
      generalize M'.system = t at hg hsame
      cases hg with
      | @moves f hs h =>
        rw [System.tx_modifyTx_self _ hr] at hsame ⊢
        by_cases heq : (f (M.system.tx c.tx)).status = (M.system.tx c.tx).status
        · exact .inl heq
        · refine .inr ⟨h.status.resolve_left heq, fun hp => ⟨x, hx, hc.symm, ha, ?_⟩⟩
          intro p hp' htwo
          rw [Transaction.participants_congr hsame.adapters] at hp'
          have hvoted := h.voted (fun hne => heq (hp.trans hne.symm)) hp p hp' htwo
          rw [hsame.id, hc, ← hid, ← hsaid]
          exact hvoted
      | strikes h => exact .inl rfl
      | counts h => exact .inl rfl
    · rw [hg.works.others r hrc]
      exact .inl rfl

/-! ### Whole programs -/

/-- From one machine on to another the status goes along edges. -/
lemma Reachable.path (hM : M.Reachable) (hr : r < M.system.transactions.size) (hs : M.Steps M') :
    (M.system.tx r).status.Path (M'.system.tx r).status := by
  induction hs with
  | refl => exact .refl
  | tail hs hstep ih =>
    have hr' := hr.trans_le (hM.grows hs).size_le
    rcases (hM.steps hs).status_step hr' hstep with h | ⟨h, -⟩
    · rw [h]
      exact ih
    · exact ih.tail h

/-- There is no transaction without a status. -/
lemma Reachable.status_ne (hM : M.Reachable) (hr : r < M.system.transactions.size) :
    (M.system.tx r).status ≠ .noTransaction := by
  refine hM.invariant (P := fun M => ∀ r, r < M.system.transactions.size →
    (M.system.tx r).status ≠ .noTransaction) ?_ ?_ r hr
  · intro clock seed r hr
    simp [initial] at hr
  · intro M M' hM h hs r hr
    by_cases hlt : r < M.system.transactions.size
    · exact (hM.path hlt (.single hs)).ne_noTransaction (h r hlt)
    · -- a new transaction can only have been begun by a bystander
      rcases hM.step_cases hs with hb | ⟨q, hq, -, ht⟩ | ⟨x, -, -, c, g, g', -, -, -, hg⟩
      · obtain ⟨ho, -⟩ := hb.fresh r (not_lt.mp hlt) hr
        rcases ho.2 with hs | hs <;> simp [hs]
      · rw [ht, (System.works_take hq).size_eq] at hr
        exact absurd hr hlt
      · rw [hg.works.size_eq] at hr
        exact absurd hr hlt

/-- Every change of status is along an edge, and to be prepared takes the votes of all. The status
is never `noTransaction`, it never becomes `active` again, and a final outcome stays. -/
theorem status_changes (hM : M.Reachable) (hr : r < M.system.transactions.size) :
    (∀ M', Step M M' → (M'.system.tx r).status = (M.system.tx r).status ∨
      (M'.system.tx r).status ∈ (M.system.tx r).status.next) ∧
    (∀ M', Step M M' → (M.system.tx r).status ≠ .prepared → (M'.system.tx r).status = .prepared →
      ∃ x ∈ M'.requests, x.tx = r ∧ x.Accepted ∧ x.Unanimous (M'.system.tx r)) ∧
    (M.system.tx r).status ≠ .noTransaction ∧
    ∀ M', M.Steps M' →
      ((M.system.tx r).status ≠ .active → (M'.system.tx r).status ≠ .active) ∧
      ((M.system.tx r).Ended → (M'.system.tx r).status = (M.system.tx r).status) := by
  refine ⟨fun M' hs => ?_, fun M' hs hne hp => ?_, hM.status_ne hr, fun M' hs => ⟨?_, ?_⟩⟩
  · exact (hM.status_step hr hs).imp_right And.left
  · rcases hM.status_step hr hs with h | ⟨-, h⟩
    · exact absurd (h.symm.trans hp) hne
    · exact h hp
  · exact (hM.path hr hs).ne_active
  · exact fun hended => (hM.path hr hs).eq_of_final hended.next_eq_nil

/-- One participant votes to commit, all others to have no part in it. -/
def ballots : (q : Question) → q.Answer
  | .prepare k _ => .ok (if k.ref = 1 then .commit else .readOnly)
  | q => Dialogue.someAnswer q

/-- A commit with two participants, after so many answers. -/
def balloted (n : Nat) : Machine :=
  let begun := ((initial 0 0).operate (.addManager {} 0)).operate (.begin 0 none)
  let enlisted := (begun.operate (.enlist 0 { ref := 1, id := ⟨"a"⟩ })).operate
    (.enlist 0 { ref := 2, id := ⟨"b"⟩ })
  (answer ballots 0)^[n] (enlisted.request .commit 0 0)

lemma reachable_balloted (n : Nat) : (balloted n).Reachable :=
  ((((((reachable_initial 0 0).operate _).operate _).operate _).operate _).request ..).answers ..

theorem status_changes_balloted :
    (balloted 9).Reachable ∧ 0 < (balloted 9).system.transactions.size ∧
    Step (balloted 9) (balloted 10) ∧ ((balloted 9).system.tx 0).status = .preparing ∧
    ((balloted 10).system.tx 0).status = .prepared ∧
    (∃ x ∈ (balloted 10).requests, x.tx = 0 ∧ x.Accepted ∧
      x.Unanimous ((balloted 10).system.tx 0)) ∧
    ∀ M', (balloted 9).Steps M' → (M'.system.tx 0).status ≠ .active := by
  have hr : 0 < (balloted 9).system.transactions.size := by decide
  have hs : Step (balloted 9) (balloted 10) := by
    have hnext : balloted 10 = (balloted 9).answer ballots 0 := Function.iterate_succ_apply' ..
    rw [hnext]
    exact step_answer ballots rfl rfl
  have hpreparing : ((balloted 9).system.tx 0).status = .preparing := by decide
  have hprepared : ((balloted 10).system.tx 0).status = .prepared := by decide
  obtain ⟨-, hvotes, -, hlater⟩ := status_changes (reachable_balloted 9) hr
  refine ⟨reachable_balloted 9, hr, hs, hpreparing, hprepared, ?_, fun M' hM' => ?_⟩
  · exact hvotes _ hs (by rw [hpreparing]; decide) hprepared
  · exact (hlater M' hM').1 (by rw [hpreparing]; decide)

end Machine

end TwoPhaseCommit
