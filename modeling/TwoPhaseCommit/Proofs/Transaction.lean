import Mathlib.Data.List.Nodup
import Mathlib.Order.Nat
import TwoPhaseCommit.Coordinator.Transaction

/-!
# What may happen to a transaction

A transaction is open until a completion is admitted, and taken from then on. Bystanders may let
participants in and mark an open transaction at will; of a taken one they leave alone all that its
completion relies on (`Transaction.Keeps`). Both are stated of a transaction before and after, so
that any number of steps of bystanders is one step.
-/

namespace TwoPhaseCommit

/-- How far a transaction has come; no step leads back. -/
def Status.stage : Status → Nat
  | active | noTransaction => 0
  | preparing => 1
  | markedRollback | prepared => 2
  | committing => 3
  | rollingBack => 4
  | committed | rolledBack => 5

/-- The statuses that a status may give way to. -/
def Status.next : Status → List Status
  | active => [markedRollback, preparing, committing, rollingBack]
  | markedRollback => [rollingBack]
  | preparing => [markedRollback, prepared, rollingBack]
  | prepared => [committing, committed, rollingBack]
  | committing => [committed, rolledBack]
  | rollingBack => [rolledBack]
  | committed | rolledBack | noTransaction => []

lemma Status.stage_lt_of_next {s s' : Status} (h : s' ∈ s.next) : s.stage < s'.stage := by
  revert h
  cases s <;> cases s' <;> decide

namespace Transaction

/-! ### Open, taken, ended -/

/-- A completion would be admitted. -/
def Open (t : Transaction) : Prop :=
  t.completing = false ∧ (t.status = .active ∨ t.status = .markedRollback)

/-- The outcome is final. -/
def Ended (t : Transaction) : Prop := t.status = .committed ∨ t.status = .rolledBack

/-- A completion was admitted: it is running, or the outcome is final. -/
def Taken (t : Transaction) : Prop := t.completing = true ∨ t.Ended

instance (t : Transaction) : Decidable t.Open := inferInstanceAs (Decidable (_ ∧ _))

instance (t : Transaction) : Decidable t.Ended := inferInstanceAs (Decidable (_ ∨ _))

instance (t : Transaction) : Decidable t.Taken := inferInstanceAs (Decidable (_ ∨ _))

/-- The adapters of the participants, in order of enlistment. -/
def adapters (t : Transaction) : List Adapter := t.resources.map (·.adapter)

/-- No adapter takes part twice. -/
def Distinct (t : Transaction) : Prop := (t.adapters.map (·.ref)).Nodup

lemma participants_eq (t : Transaction) :
    t.participants = t.adapters.zipIdx.map fun (a, i) => ⟨i, a.toAdapterKey⟩ := by
  simp [participants, adapters, List.zipIdx_map]

lemma participants_congr {t t' : Transaction} (h : t'.adapters = t.adapters) :
    t'.participants = t.participants := by
  rw [participants_eq, participants_eq, h]

lemma participants_adapter (t : Transaction) :
    t.participants.map (·.adapter) = t.adapters.map (·.toAdapterKey) := by
  rw [participants_eq, List.map_map]
  conv_rhs => rw [← List.zipIdx_map_fst 0 t.adapters, List.map_map]
  rfl

lemma Distinct.nodup {t : Transaction} (h : t.Distinct) :
    (t.participants.map (·.adapter)).Nodup := by
  rw [participants_adapter]
  have hr : t.adapters.map (·.ref) = (t.adapters.map (·.toAdapterKey)).map (·.ref) := by
    rw [List.map_map]
    rfl
  rw [Distinct, hr] at h
  exact List.Nodup.of_map _ h

lemma Open.not_taken {t : Transaction} (h : t.Open) : ¬t.Taken := by
  obtain ⟨hc, hs⟩ := h
  rintro (h | h | h)
  · rw [hc] at h
    exact Bool.noConfusion h
  · rcases hs with hs | hs <;> rw [hs] at h <;> exact Status.noConfusion h
  · rcases hs with hs | hs <;> rw [hs] at h <;> exact Status.noConfusion h

lemma Ended.stage_le {t : Transaction} (h : t.Ended) : 2 ≤ t.status.stage := by
  rcases h with h | h <;> simp [h, Status.stage]

/-- A final outcome gives way to none. -/
lemma Ended.next_eq_nil {t : Transaction} (h : t.Ended) : t.status.next = [] := by
  rcases h with h | h <;> rw [h] <;> rfl

/-! ### Marks -/

/-- The reason to roll back agrees with the status and with the timeout. -/
structure WellMarked (t : Transaction) : Prop where
  marked : t.status = .markedRollback → t.rollbackReason ≠ none
  /-- With a reason to roll back the transaction is not committed. -/
  doomed : t.rollbackReason ≠ none →
    t.status = .markedRollback ∨ t.status = .rollingBack ∨ t.status = .rolledBack
  timedOut : t.timedOut = true → ∃ d, t.timeout = some d ∧ t.rollbackReason = some (.timedOut d)

/-- No step leads back, or changes the reason to roll back. -/
structure Onward (t t' : Transaction) : Prop where
  stage : t.status.stage ≤ t'.status.stage
  /-- The first reason stays. -/
  reason : ∀ why, t.rollbackReason = some why → t'.rollbackReason = some why
  marks : t.WellMarked → t'.WellMarked
  /-- When the vote is over no reason comes up any more. -/
  late : t.WellMarked → 2 ≤ t.status.stage → t'.rollbackReason = t.rollbackReason

lemma WellMarked.reason_eq_none {t : Transaction} (h : t.WellMarked)
    (hs : t.status ≠ .markedRollback) (hr : t.status ≠ .rollingBack) (ho : t.status ≠ .rolledBack) :
    t.rollbackReason = none := by
  by_contra hne
  rcases h.doomed hne with h | h | h
  · exact hs h
  · exact hr h
  · exact ho h

@[refl] lemma Onward.refl (t : Transaction) : t.Onward t :=
  ⟨le_rfl, fun _ h => h, fun h => h, fun _ _ => rfl⟩

lemma Onward.trans {t t' t'' : Transaction} (h : t.Onward t') (h' : t'.Onward t'') :
    t.Onward t'' where
  stage := h.stage.trans h'.stage
  reason why := h'.reason why ∘ h.reason why
  marks := h'.marks ∘ h.marks
  late hw hs := (h'.late (h.marks hw) (hs.trans h.stage)).trans (h.late hw hs)

/-- A step that touches neither the status nor the marks. -/
lemma Onward.of_eq {t t' : Transaction} (hs : t'.status = t.status)
    (hr : t'.rollbackReason = t.rollbackReason) (ht : t'.timedOut = t.timedOut)
    (hd : t'.timeout = t.timeout) : t.Onward t' where
  stage := by rw [hs]
  reason _ h := hr.trans h
  marks h := ⟨by rw [hs, hr]; exact h.marked, by rw [hs, hr]; exact h.doomed,
    by rw [ht, hd, hr]; exact h.timedOut⟩
  late _ _ := hr

/-- The status moves on; to a status that leads to a commit it does so without a mark only. -/
lemma Onward.of_status {t t' : Transaction} {s : Status} (hs : t'.status = s)
    (hr : t'.rollbackReason = t.rollbackReason) (ht : t'.timedOut = t.timedOut)
    (hd : t'.timeout = t.timeout) (hstage : t.status.stage ≤ s.stage) (hm : s ≠ .markedRollback)
    (hnone : t.rollbackReason = none ∨ s = .rollingBack ∨ s = .rolledBack) : t.Onward t' where
  stage := by rw [hs]; exact hstage
  reason why h := hr.trans h
  marks h := by
    refine ⟨fun hmarked => absurd (hs.symm.trans hmarked) hm, fun hreason => .inr ?_, ?_⟩
    · rw [hr] at hreason
      rw [hs]
      exact hnone.resolve_left hreason
    · rw [ht, hd, hr]
      exact h.timedOut
  late _ _ := hr

/-- A mark that is not too late. -/
lemma onward_mark {t : Transaction} (why : RollbackReason) (hs : t.status.stage ≤ 2)
    (hlate : t.status.stage = 2 → t.status = .markedRollback) : t.Onward (t.mark why) where
  stage := hs
  reason w hw := by simp [mark, hw]
  marks h := by
    refine ⟨fun _ => ?_, fun _ => .inl rfl, fun ht => ?_⟩
    · cases hr : t.rollbackReason <;> simp [mark, hr]
    · obtain ⟨d, hd, hr⟩ := h.timedOut ht
      exact ⟨d, hd, by simp [mark, hr]⟩
  late h hle := by
    cases hr : t.rollbackReason with
    | none => exact absurd hr (h.marked (hlate (hs.antisymm hle)))
    | some w => simp [mark, hr]

/-! ### Steps -/

/-- What every step of anybody leaves alone. -/
structure Grows (t t' : Transaction) : Prop where
  id : t'.id = t.id
  /-- Participants only come in at the end. -/
  adapters : t.adapters <+: t'.adapters
  distinct : t.Distinct → t'.Distinct
  onward : t.Onward t'

/-- What bystanders leave alone of a transaction that is taken. -/
structure Keeps (t t' : Transaction) : Prop where
  completing : t'.completing = t.completing
  /-- A mark is possible up to the last vote. -/
  status : t'.status = t.status ∨
    (t.status = .active ∨ t.status = .preparing) ∧ t'.status = .markedRollback
  /-- Participants come in only while the callbacks run. -/
  resources : t.status ≠ .active → t'.resources = t.resources
  regular : t'.regular = t.regular
  interposed : t'.interposed = t.interposed

/-- A step of a bystander. -/
structure Undisturbed (t t' : Transaction) : Prop where
  grows : t.Grows t'
  opens : t.Open → t'.Open
  keeps : t.Taken → t.Keeps t'

lemma Grows.of_adapters {t t' : Transaction} (hid : t'.id = t.id) (ha : t'.adapters = t.adapters)
    (ho : t.Onward t') : t.Grows t' where
  id := hid
  adapters := ha ▸ List.prefix_refl _
  distinct hd := by rw [Distinct, ha]; exact hd
  onward := ho

@[refl] lemma Grows.refl (t : Transaction) : t.Grows t := .of_adapters rfl rfl (.refl t)

lemma Grows.trans {t t' t'' : Transaction} (h : t.Grows t') (h' : t'.Grows t'') : t.Grows t'' where
  id := h'.id.trans h.id
  adapters := h.adapters.trans h'.adapters
  distinct := h'.distinct ∘ h.distinct
  onward := h.onward.trans h'.onward

@[refl] lemma Keeps.refl (t : Transaction) : t.Keeps t := ⟨rfl, .inl rfl, fun _ => rfl, rfl, rfl⟩

lemma Keeps.status_ne_active {t t' : Transaction} (h : t.Keeps t') (hs : t.status ≠ .active) :
    t'.status ≠ .active := by
  rcases h.status with h | ⟨_, h⟩ <;> rw [h]
  · exact hs
  · simp

lemma Keeps.trans {t t' t'' : Transaction} (h : t.Keeps t') (h' : t'.Keeps t'') : t.Keeps t'' where
  completing := h'.completing.trans h.completing
  status := by
    rcases h.status with hs | ⟨hs, hm⟩
    · rw [← hs]
      exact h'.status
    · refine .inr ⟨hs, ?_⟩
      rcases h'.status with hs' | ⟨hs', _⟩
      · rw [hs', hm]
      · rw [hm] at hs'
        simp at hs'
  resources hs := (h'.resources (h.status_ne_active hs)).trans (h.resources hs)
  regular := h'.regular.trans h.regular
  interposed := h'.interposed.trans h.interposed

lemma Keeps.ended {t t' : Transaction} (h : t.Keeps t') (ht : t.Ended) : t'.status = t.status := by
  rcases h.status with hs | ⟨hs, _⟩
  · exact hs
  · rcases ht with ht | ht <;> rw [ht] at hs <;> simp at hs

lemma Keeps.taken {t t' : Transaction} (h : t.Keeps t') (ht : t.Taken) : t'.Taken := by
  rcases ht with ht | ht
  · exact .inl (h.completing.trans ht)
  · right
    rw [Ended, h.ended ht]
    exact ht

@[refl] lemma Undisturbed.refl (t : Transaction) : t.Undisturbed t :=
  ⟨.refl t, fun h => h, fun _ => .refl t⟩

lemma Undisturbed.trans {t t' t'' : Transaction} (h : t.Undisturbed t') (h' : t'.Undisturbed t'') :
    t.Undisturbed t'' where
  grows := h.grows.trans h'.grows
  opens ho := h'.opens (h.opens ho)
  keeps ht := (h.keeps ht).trans (h'.keeps ((h.keeps ht).taken ht))

/-! ### Operations of bystanders -/

lemma undisturbed_mark {t : Transaction} (why : RollbackReason)
    (hs : t.status = .active ∨ t.status = .preparing) : t.Undisturbed (t.mark why) where
  grows := by
    refine .of_adapters rfl rfl (onward_mark why ?_ fun h => ?_)
    · rcases hs with hs | hs <;> simp [hs, Status.stage]
    · rcases hs with hs | hs <;> simp [hs, Status.stage] at h
  opens ho := ⟨ho.1, .inr rfl⟩
  keeps _ := ⟨rfl, .inr ⟨hs, rfl⟩, fun _ => rfl, rfl, rfl⟩

lemma undisturbed_markRollbackOnly {t t' : Transaction} {why : RollbackReason}
    (h : t.markRollbackOnly why = .ok t') : t.Undisturbed t' := by
  unfold markRollbackOnly at h
  split at h
  next hs =>
    cases h
    exact undisturbed_mark why (.inl hs)
  next hs =>
    cases h
    exact undisturbed_mark why (.inr hs)
  next hs =>
    cases h
    exact .refl t
  next => cases h

lemma adapters_markRollbackOnly {t t' : Transaction} {why : RollbackReason}
    (h : t.markRollbackOnly why = .ok t') : t'.adapters = t.adapters := by
  unfold markRollbackOnly at h
  split at h <;> cases h <;> rfl

lemma undisturbed_expire {t : Transaction} (hs : t.status = .active) : t.Undisturbed t.expire := by
  unfold expire
  split
  next => exact .refl t
  next d hd =>
    refine ⟨.of_adapters rfl rfl ⟨by simp [hs, Status.stage], fun w hw => by simp [mark, hw],
      fun hw => ?_, fun _ h => by simp [hs, Status.stage] at h⟩, fun h => ⟨h.1, .inr rfl⟩,
      fun _ => ⟨rfl, .inr ⟨.inl hs, rfl⟩, fun _ => rfl, rfl, rfl⟩⟩
    -- an active transaction is not marked yet, so that the reason is the timeout
    have hnone : t.rollbackReason = none :=
      hw.reason_eq_none (by simp [hs]) (by simp [hs]) (by simp [hs])
    exact ⟨fun _ => by simp [mark, hnone], fun _ => .inl rfl,
      fun _ => ⟨d, hd, by simp [mark, hnone]⟩⟩

/-- Associating a participant, or ending its association, changes no adapter. -/
lemma adapters_updateFirst (p : Enlisted → Bool) {f : Enlisted → Enlisted}
    (h : ∀ e, (f e).adapter = e.adapter) (es : List Enlisted) :
    (updateFirst p f es).map (·.adapter) = es.map (·.adapter) := by
  induction es with
  | nil => rfl
  | cons e es ih =>
    unfold updateFirst
    split
    · simp [h]
    · simp [ih]

/-- A participant that comes in is none of those who take part. -/
lemma Distinct.concat {t : Transaction} (h : t.Distinct) {a : Adapter}
    (ha : ¬t.resources.any (Enlisted.matches a.toAdapterKey)) :
    ({ t with resources := t.resources ++ [⟨a, .enlisted, none⟩] } : Transaction).Distinct := by
  simp only [Distinct, adapters, List.map_append, List.map_cons, List.map_nil]
  refine List.nodup_append.mpr ⟨h, by simp, ?_⟩
  simp only [List.mem_map, List.mem_singleton]
  rintro _ ⟨_, ⟨e, he, rfl⟩, rfl⟩ _ rfl hr
  refine ha (List.any_eq_true.mpr ⟨e, he, ?_⟩)
  simp [Enlisted.matches, hr]

lemma undisturbed_enlist {t t' : Transaction} {a : Adapter} {new : Bool}
    (h : t.enlist a = .ok (new, t')) : t.Undisturbed t' := by
  unfold enlist at h
  split at h
  next => cases h
  next hs =>
    have hs : t.status = .active := not_not.mp hs
    split at h
    next =>
      cases h
      have ha := adapters_updateFirst (Enlisted.matches a.toAdapterKey)
        (f := fun e => { e with delisted := none }) (fun _ => rfl) t.resources
      exact ⟨.of_adapters rfl ha (.of_eq rfl rfl rfl rfl), fun h => h,
        fun _ => ⟨rfl, .inl rfl, fun hn => absurd hs hn, rfl, rfl⟩⟩
    next ha =>
      split at h
      next => cases h
      next =>
        cases h
        refine ⟨⟨rfl, ?_, fun hd => hd.concat ha, .of_eq rfl rfl rfl rfl⟩, fun h => h,
          fun _ => ⟨rfl, .inl rfl, fun hn => absurd hs hn, rfl, rfl⟩⟩
        simp [adapters]

lemma undisturbed_delist {t t' : Transaction} {a : AdapterKey} {flag : DelistFlag} {found : Bool}
    (h : t.delist a flag = .ok (found, t')) : t.Undisturbed t' := by
  unfold delist at h
  split at h
  next => cases h
  next hs =>
    -- a taken transaction is left alone: it is completing, or its status is final
    have hn : ¬t.Taken := by
      rw [not_or, not_and_or, not_not, not_not, Bool.not_eq_true] at hs
      exact Open.not_taken ⟨hs.2, hs.1⟩
    split at h
    next =>
      cases h
      exact .refl t
    next e _ =>
      split at h
      next =>
        cases h
        exact .refl t
      next =>
        have ha := adapters_updateFirst (Enlisted.matches a)
          (f := fun e => { e with delisted := some flag }) (fun _ => rfl) t.resources
        split at h
        next =>
          cases h
          exact ⟨.of_adapters rfl ha (.of_eq rfl rfl rfl rfl), fun h => h, fun ht => absurd ht hn⟩
        next =>
          cases h
          have hstatus : t.status = .active ∨ t.status = .markedRollback := by
            rw [not_or, not_and_or, not_not, not_not] at hs
            exact hs.1
          refine ⟨.of_adapters rfl ha (.trans ?_ (onward_mark _ ?_ fun h => ?_)),
            fun h => ⟨h.1, .inr rfl⟩, fun ht => absurd ht hn⟩
          · exact .of_eq rfl rfl rfl rfl
          · rcases hstatus with h | h <;> simp [h, Status.stage]
          · refine hstatus.resolve_left fun ha => ?_
            simp [ha, Status.stage] at h

lemma undisturbed_register {t t' : Transaction} {c : Synchronization} {interposed : Bool}
    (h : t.register c interposed = .ok t') : t.Undisturbed t' := by
  unfold register at h
  split at h
  next => cases h
  next hs =>
    rw [not_or, not_not, Bool.not_eq_true] at hs
    have hn : ¬t.Taken := Open.not_taken ⟨hs.2, .inl hs.1⟩
    split at h <;> cases h <;>
      exact ⟨.of_adapters rfl rfl (.of_eq rfl rfl rfl rfl), fun h => h, fun ht => absurd ht hn⟩

lemma undisturbed_owner (t : Transaction) (owner : Option TaskId) :
    t.Undisturbed { t with owner } :=
  ⟨.of_adapters rfl rfl (.of_eq rfl rfl rfl rfl), fun h => h,
    fun _ => ⟨rfl, .inl rfl, fun _ => rfl, rfl, rfl⟩⟩

lemma undisturbed_claim {t t' : Transaction} {k : TaskId} (h : t.claim k = .ok t') :
    t.Undisturbed t' := by
  unfold claim at h
  split at h
  next =>
    split at h <;> cases h
    exact .refl t
  next =>
    cases h
    exact undisturbed_owner t _

lemma undisturbed_release (t : Transaction) (k : TaskId) : t.Undisturbed (t.release k) := by
  unfold release
  split
  · exact undisturbed_owner t _
  · exact .refl t

/-! ### What an operation changes -/

/-- An enlistment concerns nothing but the participants. -/
lemma enlist_ok {t t' : Transaction} {a : Adapter} {new : Bool} (h : t.enlist a = .ok (new, t')) :
    t.status = .active ∧ ∃ resources, t' = { t with resources } := by
  unfold enlist at h
  split at h
  next => cases h
  next hs =>
    refine ⟨not_not.mp hs, ?_⟩
    split at h
    · cases h
      exact ⟨_, rfl⟩
    · split at h
      · cases h
      · cases h
        exact ⟨_, rfl⟩

/-- Ending an association concerns nothing but the participants, unless it marks the transaction. -/
lemma delist_ok {t t' : Transaction} {a : AdapterKey} {flag : DelistFlag} {found : Bool}
    (h : t.delist a flag = .ok (found, t')) :
    ∃ resources, ({ t with resources } : Transaction).adapters = t.adapters ∧
      (t' = { t with resources } ∨ ∃ why, t' = ({ t with resources } : Transaction).mark why) := by
  unfold delist at h
  split at h
  · cases h
  · split at h
    · cases h
      exact ⟨_, rfl, .inl rfl⟩
    · split at h
      · cases h
        exact ⟨_, rfl, .inl rfl⟩
      · have ha := adapters_updateFirst (Enlisted.matches a)
          (f := fun e => { e with delisted := some flag }) (fun _ => rfl) t.resources
        cases flag with
        | success =>
          cases h
          exact ⟨_, ha, .inl rfl⟩
        | fail =>
          cases h
          exact ⟨_, ha, .inr ⟨_, rfl⟩⟩

/-- A registration concerns nothing but the callbacks. -/
lemma register_ok {t t' : Transaction} {c : Synchronization} {interposed : Bool}
    (h : t.register c interposed = .ok t') :
    ∃ regular interposed, t' = { t with regular, interposed } := by
  unfold register at h
  split at h
  · cases h
  · split at h <;> cases h <;> exact ⟨_, _, rfl⟩

lemma markRollbackOnly_ok {t t' : Transaction} {why : RollbackReason}
    (h : t.markRollbackOnly why = .ok t') : t' = t ∨ t' = t.mark why := by
  unfold markRollbackOnly at h
  split at h <;> cases h
  · exact .inr rfl
  · exact .inr rfl
  · exact .inl rfl

/-! ### Owner and timeout -/

/-- Neither the task that holds the transaction nor its timeout is concerned. -/
structure Unconcerned (t t' : Transaction) : Prop where
  owner : t'.owner = t.owner
  timedOut : t'.timedOut = t.timedOut

@[refl] lemma Unconcerned.refl (t : Transaction) : t.Unconcerned t := ⟨rfl, rfl⟩

lemma unconcerned_enlist {t t' : Transaction} {a : Adapter} {new : Bool}
    (h : t.enlist a = .ok (new, t')) : t.Unconcerned t' := by
  obtain ⟨-, _, rfl⟩ := enlist_ok h
  exact ⟨rfl, rfl⟩

lemma unconcerned_delist {t t' : Transaction} {a : AdapterKey} {flag : DelistFlag} {found : Bool}
    (h : t.delist a flag = .ok (found, t')) : t.Unconcerned t' := by
  obtain ⟨_, -, rfl | ⟨_, rfl⟩⟩ := delist_ok h
  · exact ⟨rfl, rfl⟩
  · exact ⟨rfl, rfl⟩

lemma unconcerned_register {t t' : Transaction} {c : Synchronization} {interposed : Bool}
    (h : t.register c interposed = .ok t') : t.Unconcerned t' := by
  obtain ⟨_, _, rfl⟩ := register_ok h
  exact ⟨rfl, rfl⟩

lemma unconcerned_markRollbackOnly {t t' : Transaction} {why : RollbackReason}
    (h : t.markRollbackOnly why = .ok t') : t.Unconcerned t' := by
  rcases markRollbackOnly_ok h with rfl | rfl
  · exact .refl _
  · exact ⟨rfl, rfl⟩

lemma claim_ok {t t' : Transaction} {k : TaskId} (h : t.claim k = .ok t') :
    (t.owner = none ∨ t.owner = some k) ∧ t' = { t with owner := some k } := by
  unfold claim at h
  split at h
  next owner ho =>
    split at h
    next hk =>
      cases h
      subst hk
      exact ⟨.inr ho, by rw [← ho]⟩
    next => cases h
  next ho =>
    cases h
    exact ⟨.inl ho, rfl⟩

lemma owner_expire (t : Transaction) : t.expire.owner = t.owner := by
  unfold expire
  split <;> rfl

/-! ### Admission -/

/-- A completion is admitted to an open transaction only; otherwise nothing changes. -/
lemma admitCommit_cases (t : Transaction) :
    (∃ why, t.admitCommit = (.refused why, t) ∧ ¬t.Open) ∨
    t.admitCommit = (.toRollBack, { t with completing := true }) ∧ t.completing = false ∧
      t.status = .markedRollback ∨
    t.admitCommit = (.toCommit t.beforeOrder, { t with completing := true }) ∧
      t.completing = false ∧ t.status = .active := by
  unfold admitCommit Open
  by_cases hc : t.completing
  · exact .inl ⟨_, by rw [if_pos hc], by simp [hc]⟩
  · have hf : t.completing = false := Bool.not_eq_true _ ▸ hc
    rw [if_neg hc]
    cases hs : t.status <;> simp [hf]

lemma admitRollback_cases (t : Transaction) :
    (∃ why, t.admitRollback = (some why, t) ∧ ¬t.Open) ∨
    t.admitRollback = (none, { t with completing := true }) ∧ t.Open := by
  unfold admitRollback Open
  by_cases hc : t.completing
  · exact .inl ⟨_, by rw [if_pos (.inl hc)], by simp [hc]⟩
  · have hf : t.completing = false := Bool.not_eq_true _ ▸ hc
    by_cases hs : t.status = .active ∨ t.status = .markedRollback
    · refine .inr ⟨?_, hf, hs⟩
      rw [if_neg]
      rintro (h | ⟨h₁, h₂⟩)
      · exact hc h
      · exact hs.elim h₁ h₂
    · exact .inl ⟨_, if_pos (.inr (not_or.mp hs)), fun h => hs h.2⟩

end Transaction

end TwoPhaseCommit
