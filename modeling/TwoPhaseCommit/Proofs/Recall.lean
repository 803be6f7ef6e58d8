import Mathlib.Data.List.Forall2
import TwoPhaseCommit.Proofs.Machine

/-!
# Ended associations

How the association of a participant was ended is recorded in the transaction, and tells later
enlistments and delistings whether there is something left to do. `Transaction.Recalls` holds of two
transactions that differ in this record only, and of which the first recalls all ended associations
that the second does. Every operation on a transaction keeps this; and some of them may be left out
of the second: the ones that associate a participant again or end an association in success, and
those that find it ended.
-/

namespace TwoPhaseCommit

open Transaction (updateFirst Enlisted.matches)

/-! ### Participants -/

/-- The same participant; and if its association is ended in the second, so it is in the first. -/
structure Enlisted.Recalls (e e' : Enlisted) : Prop where
  same : e = { e' with delisted := e.delisted }
  ended : e.delisted = none → e'.delisted = none

namespace Enlisted

variable {e e' : Enlisted} {es es' : List Enlisted} {a : AdapterKey}

@[refl] lemma Recalls.refl (e : Enlisted) : e.Recalls e := ⟨rfl, fun h => h⟩

lemma Recalls.adapter (h : e.Recalls e') : e.adapter = e'.adapter := by
  rw [h.same]

lemma Recalls.matches (h : e.Recalls e') (a : AdapterKey) :
    Enlisted.matches a e = Enlisted.matches a e' := by
  rw [Enlisted.matches, Enlisted.matches, h.adapter]

lemma Recalls.setStatus (h : e.Recalls e') (s : ResourceStatus) :
    ({ e with status := s } : Enlisted).Recalls { e' with status := s } where
  same := by
    rw [h.same]
  ended := h.ended

lemma forall₂_refl (es : List Enlisted) : List.Forall₂ Recalls es es := by
  induction es with
  | nil => exact .nil
  | cons e es ih => exact .cons (.refl e) ih

lemma adapters_of_forall₂ (h : List.Forall₂ Recalls es es') :
    es.map (·.adapter) = es'.map (·.adapter) := by
  induction h with
  | nil => rfl
  | cons he _ ih => rw [List.map_cons, List.map_cons, he.adapter, ih]

lemma modify_of_forall₂ (h : List.Forall₂ Recalls es es') (i : Nat) {f : Enlisted → Enlisted}
    (hf : ∀ e e', e.Recalls e' → (f e).Recalls (f e')) :
    List.Forall₂ Recalls (es.modify i f) (es'.modify i f) := by
  induction h generalizing i with
  | nil => simp
  | cons he hes ih =>
    cases i with
    | zero => exact .cons (hf _ _ he) hes
    | succ i => exact .cons he (ih i)

/-- A change of what is known of a participant leaves its association as it was. -/
lemma mem_modify_status {i : Nat} {s : ResourceStatus}
    (he : e ∈ es.modify i fun e => { e with status := s }) :
    ∃ e' ∈ es, e.delisted = e'.delisted := by
  obtain ⟨j, hj, rfl⟩ := List.mem_iff_getElem.mp he
  rw [List.length_modify] at hj
  refine ⟨es[j], List.getElem_mem hj, ?_⟩
  rw [List.getElem_modify]
  split <;> rfl

/-- An adapter finds the same participant in both. -/
lemma find?_of_forall₂ (h : List.Forall₂ Recalls es es') (a : AdapterKey) :
    (es.find? (Enlisted.matches a) = none ∧ es'.find? (Enlisted.matches a) = none) ∨
    ∃ e e', es.find? (Enlisted.matches a) = some e ∧ es'.find? (Enlisted.matches a) = some e' ∧
      e.Recalls e' := by
  induction h with
  | nil => exact .inl ⟨rfl, rfl⟩
  | @cons e e' es es' he _ ih =>
    have hm := he.matches a
    cases hb : Enlisted.matches a e with
    | true =>
      rw [hb] at hm
      exact .inr ⟨e, e', List.find?_cons_of_pos hb, List.find?_cons_of_pos hm.symm, he⟩
    | false =>
      rw [hb] at hm
      rw [List.find?_cons_of_neg (by simp [hb]), List.find?_cons_of_neg (by simp [← hm])]
      exact ih

/-- The same participant changes in both. -/
lemma updateFirst_of_forall₂ (h : List.Forall₂ Recalls es es') (a : AdapterKey)
    {f g : Enlisted → Enlisted} (hf : ∀ e e', e.Recalls e' → (f e).Recalls (g e')) :
    List.Forall₂ Recalls (updateFirst (Enlisted.matches a) f es)
      (updateFirst (Enlisted.matches a) g es') := by
  induction h with
  | nil => exact .nil
  | cons he hes ih =>
    unfold updateFirst
    rw [he.matches a]
    split
    · exact .cons (hf _ _ he) hes
    · exact .cons he ih

/-- A participant changes in the first only. -/
lemma updateFirst_left (h : List.Forall₂ Recalls es es') (a : AdapterKey) {f : Enlisted → Enlisted}
    (hf : ∀ e, ∀ e' ∈ es', e.Recalls e' → (f e).Recalls e') :
    List.Forall₂ Recalls (updateFirst (Enlisted.matches a) f es) es' := by
  induction h with
  | nil => exact .nil
  | cons he hes ih =>
    unfold updateFirst
    split
    · exact .cons (hf _ _ (List.mem_cons_self ..) he) hes
    · exact .cons he (ih fun e e' he' => hf e e' (List.mem_cons_of_mem _ he'))

end Enlisted

/-! ### Transactions -/

/-- The same transaction, but that the first may recall more ended associations. -/
structure Transaction.Recalls (t t' : Transaction) : Prop where
  same : t = { t' with resources := t.resources }
  resources : List.Forall₂ Enlisted.Recalls t.resources t'.resources
  /-- While enlistment is possible the second recalls none. -/
  active : t'.status = .active → ∀ e ∈ t'.resources, e.delisted = none

/-- Both have failed alike, or have succeeded and recall what they should. -/
inductive Transaction.Answers {ε : Type} : Except ε Transaction → Except ε Transaction → Prop
  | error (e : ε) : Answers (.error e) (.error e)
  | ok {t t' : Transaction} (h : t.Recalls t') : Answers (.ok t) (.ok t')

namespace Transaction

variable {t t' u u' : Transaction} {a : Adapter} {ε : Type}

lemma Recalls.status (h : t.Recalls t') : t.status = t'.status := by rw [h.same]

lemma Recalls.completing (h : t.Recalls t') : t.completing = t'.completing := by
  rw [h.same]

lemma Recalls.id (h : t.Recalls t') : t.id = t'.id := by rw [h.same]

lemma Recalls.owner (h : t.Recalls t') : t.owner = t'.owner := by rw [h.same]

lemma Recalls.rollbackReason (h : t.Recalls t') : t.rollbackReason = t'.rollbackReason := by
  rw [h.same]

lemma Recalls.reason (h : t.Recalls t') : t.reason = t'.reason := by
  rw [Transaction.reason, Transaction.reason, h.rollbackReason]

lemma Recalls.markedReason (h : t.Recalls t') : t.markedReason = t'.markedReason := by
  rw [Transaction.markedReason, Transaction.markedReason, h.status, h.reason]

lemma Recalls.adapters (h : t.Recalls t') : t.adapters = t'.adapters :=
  Enlisted.adapters_of_forall₂ h.resources

lemma Recalls.participants (h : t.Recalls t') : t.participants = t'.participants :=
  participants_congr h.adapters

lemma Recalls.isDue (h : t.Recalls t') (now : Nat) : t.isDue now = t'.isDue now := by
  rw [h.same]
  rfl

/-- A transaction that recalls nothing, or in which nobody can enlist any more. -/
lemma Recalls.refl (h : t.status = .active → ∀ e ∈ t.resources, e.delisted = none) : t.Recalls t :=
  ⟨rfl, Enlisted.forall₂_refl _, h⟩

/-- Both change alike, and not in their participants. -/
lemma Recalls.map (h : t.Recalls t') {f : Transaction → Transaction}
    (hf : ∀ (t : Transaction) (es : List Enlisted),
      f { t with resources := es } = { f t with resources := es })
    (hs : (f t').status = .active → t'.status = .active) : (f t).Recalls (f t') := by
  have hresources : ∀ t, (f t).resources = t.resources := fun t => by
    have ht : f t = { f t with resources := t.resources } := hf t t.resources
    rw [ht]
  refine ⟨?_, ?_, ?_⟩
  · rw [hresources t, ← hf, ← h.same]
  · rw [hresources, hresources]
    exact h.resources
  · rw [hresources]
    exact fun ha => h.active (hs ha)

/-- The same for what may fail. -/
lemma Recalls.answers (h : t.Recalls t') {f : Transaction → Except ε Transaction}
    (hf : ∀ (t : Transaction) (es : List Enlisted),
      f { t with resources := es } = (f t).map ({ · with resources := es }))
    (hs : ∀ u, f t' = .ok u → u.status = .active → t'.status = .active) :
    Answers (f t) (f t') := by
  have hresources : ∀ t u, f t = .ok u → u.resources = t.resources := fun t u hu => by
    have ht : f t = (f t).map ({ · with resources := t.resources }) := hf t t.resources
    rw [hu] at ht
    rw [Except.ok.inj ht]
  have ht : f t = (f t').map ({ · with resources := t.resources }) := by
    rw [← hf, ← h.same]
  cases hu : f t' with
  | error e =>
    rw [ht, hu]
    exact .error e
  | ok u =>
    rw [ht, hu]
    refine .ok ⟨rfl, ?_, ?_⟩
    · rw [hresources t' u hu]
      exact h.resources
    · rw [hresources t' u hu]
      exact fun ha => h.active (hs u hu ha)

lemma Recalls.markRollbackOnly (h : t.Recalls t') (why : RollbackReason) :
    Answers (t.markRollbackOnly why) (t'.markRollbackOnly why) := by
  refine h.answers (f := fun t => t.markRollbackOnly why) (fun t es => ?_) fun u hu ha => ?_
  · cases t with
    | mk _ _ _ status => cases status <;> rfl
  · unfold Transaction.markRollbackOnly at hu
    split at hu
    · cases hu
      cases ha
    · cases hu
      cases ha
    · cases hu
      exact ha
    · cases hu

lemma Recalls.expire (h : t.Recalls t') : t.expire.Recalls t'.expire := by
  refine h.map (f := Transaction.expire) (fun t es => ?_) fun ha => ?_
  · cases t with
    | mk _ timeout => cases timeout <;> rfl
  · unfold Transaction.expire at ha
    split at ha
    · exact ha
    · cases ha

lemma Recalls.register (h : t.Recalls t') (x : Synchronization) (interposed : Bool) :
    Answers (t.register x interposed) (t'.register x interposed) := by
  refine h.answers (f := fun t => t.register x interposed) (fun t es => ?_) fun u hu ha => ?_
  · unfold Transaction.register
    by_cases hc : t.status ≠ .active ∨ t.completing
    · rw [if_pos hc, if_pos hc]
      rfl
    · rw [if_neg hc, if_neg hc]
      cases interposed <;> rfl
  · unfold Transaction.register at hu
    split at hu
    · cases hu
    · split at hu <;> cases hu <;> exact ha

lemma Recalls.claim {k : TaskId} (h : t.Recalls t') : Answers (t.claim k) (t'.claim k) := by
  refine h.answers (f := fun t => t.claim k) (fun t es => ?_) fun u hu ha => ?_
  · obtain ⟨_, _, _, _, _, _, _, _, _, owner, _⟩ := t
    cases owner with
    | none => rfl
    | some owner =>
      unfold Transaction.claim
      dsimp only
      split <;> rfl
  · obtain ⟨-, rfl⟩ := claim_ok hu
    exact ha

lemma Recalls.setOwner (h : t.Recalls t') (owner : Option TaskId) :
    ({ t with owner } : Transaction).Recalls { t' with owner } :=
  h.map (f := fun t => { t with owner }) (fun _ _ => rfl) fun ha => ha

lemma Recalls.release (h : t.Recalls t') (k : TaskId) : (t.release k).Recalls (t'.release k) := by
  unfold Transaction.release
  rw [h.owner]
  split
  · exact h.setOwner none
  · exact h

/-! ### Completion -/

lemma Recalls.setStatus (h : t.Recalls t') {s : Status} (hs : s ≠ .active) :
    ({ t with status := s } : Transaction).Recalls { t' with status := s } :=
  h.map (f := fun t => { t with status := s }) (fun _ _ => rfl) fun ha => absurd ha hs

lemma Recalls.setResourceStatus (h : t.Recalls t') (i : Nat) (s : ResourceStatus) :
    (t.setResourceStatus i s).Recalls (t'.setResourceStatus i s) where
  same := by
    unfold Transaction.setResourceStatus
    rw [h.same]
  resources := Enlisted.modify_of_forall₂ h.resources i fun _ _ he => he.setStatus s
  active ha e he := by
    obtain ⟨e', he', hd⟩ := Enlisted.mem_modify_status he
    rw [hd]
    exact h.active ha e' he'

lemma Recalls.afterOrder (h : t.Recalls t') : t.afterOrder = t'.afterOrder := by
  rw [h.same]
  rfl

lemma Recalls.finish (h : t.Recalls t') {s : Status} (hs : s ≠ .active) :
    (t.finish s).Recalls (t'.finish s) :=
  h.map (f := fun t => t.finish s) (fun _ _ => rfl) fun ha => absurd ha hs

/-- Both answer alike and change alike, and not in their participants. -/
lemma Recalls.both {α : Type} (h : t.Recalls t') {f : Transaction → α × Transaction}
    (hf : ∀ (t : Transaction) (es : List Enlisted),
      f { t with resources := es } = ((f t).1, { (f t).2 with resources := es }))
    (hs : (f t').2.status = .active → t'.status = .active) :
    (f t).1 = (f t').1 ∧ (f t).2.Recalls (f t').2 := by
  refine ⟨?_, h.map (f := fun t => (f t).2) (fun t es => by rw [hf]) hs⟩
  have ht := congrArg Prod.fst (hf t' t.resources)
  rwa [← h.same] at ht

lemma Recalls.admitCommit (h : t.Recalls t') :
    t.admitCommit.1 = t'.admitCommit.1 ∧ t.admitCommit.2.Recalls t'.admitCommit.2 := by
  refine h.both (f := Transaction.admitCommit) (fun t es => ?_) fun ha => ?_
  · obtain ⟨_, _, _, status, _, _, _, _, _, _, completing⟩ := t
    cases completing <;> cases status <;> rfl
  · rcases t'.admitCommit_cases with ⟨why, hw, -⟩ | ⟨hw, -, -⟩ | ⟨hw, -, -⟩ <;> rw [hw] at ha <;>
      exact ha

lemma Recalls.admitRollback (h : t.Recalls t') :
    t.admitRollback.1 = t'.admitRollback.1 ∧ t.admitRollback.2.Recalls t'.admitRollback.2 := by
  refine h.both (f := Transaction.admitRollback) (fun t es => ?_) fun ha => ?_
  · obtain ⟨_, _, _, status, _, _, _, _, _, _, completing⟩ := t
    cases completing <;> cases status <;> rfl
  · rcases t'.admitRollback_cases with ⟨why, hw, -⟩ | ⟨hw, -⟩ <;> rw [hw] at ha <;> exact ha

lemma Recalls.enterCommit (h : t.Recalls t') :
    t.enterCommit.1 = t'.enterCommit.1 ∧ t.enterCommit.2.Recalls t'.enterCommit.2 := by
  unfold Transaction.enterCommit
  by_cases hs : t'.status = .markedRollback
  · rw [if_pos hs, if_pos (h.status.trans hs)]
    exact ⟨rfl, h⟩
  · rw [if_neg hs, if_neg (h.status ▸ hs)]
    refine ⟨by rw [h.participants], ?_⟩
    have hstatus : (if isDirect t'.participants then Status.committing else .preparing) ≠ .active :=
      by split <;> nofun
    simpa only [h.participants] using h.setStatus hstatus

lemma Recalls.enterPrepared (h : t.Recalls t') :
    t.enterPrepared.1 = t'.enterPrepared.1 ∧ t.enterPrepared.2.Recalls t'.enterPrepared.2 := by
  refine h.both (f := Transaction.enterPrepared) (fun t es => ?_) fun ha => ?_
  · obtain ⟨_, _, _, status, _, _, _, _, _, _, _⟩ := t
    cases status <;> rfl
  · unfold Transaction.enterPrepared at ha
    split at ha
    · exact ha
    · cases ha

/-! ### Enlistment -/

lemma Recalls.any (h : t.Recalls t') (a : AdapterKey) :
    t.resources.any (Enlisted.matches a) = t'.resources.any (Enlisted.matches a) := by
  have hany : ∀ es : List Enlisted, es.any (Enlisted.matches a) =
      (es.map (·.adapter)).any fun b => b.ref == a.ref || b.isSame a := fun es => by
    rw [List.any_map]
    rfl
  rw [hany, hany, Enlisted.adapters_of_forall₂ h.resources]

/-- The participant without a first phase has the same name in both. -/
lemma Recalls.lastAgent (h : t.Recalls t') :
    (t.resources.find? fun e => !e.adapter.twoPhase).map (·.adapter.id) =
      (t'.resources.find? fun e => !e.adapter.twoPhase).map (·.adapter.id) := by
  have hfind : ∀ es : List Enlisted, (es.find? fun e => !e.adapter.twoPhase).map (·.adapter.id) =
      ((es.map (·.adapter)).find? fun b => !b.twoPhase).map (·.id) := fun es => by
    rw [List.find?_map, Option.map_map]
    rfl
  rw [hfind, hfind, Enlisted.adapters_of_forall₂ h.resources]

/-- A participant that comes in comes into both. -/
lemma Recalls.concat (h : t.Recalls t') (a : Adapter) :
    ({ t with resources := t.resources ++ [⟨a, .enlisted, none⟩] } : Transaction).Recalls
      { t' with resources := t'.resources ++ [⟨a, .enlisted, none⟩] } where
  same := by
    rw [h.same]
  resources := List.rel_append h.resources (.cons (.refl _) .nil)
  active hs e he := by
    rcases List.mem_append.mp he with he | he
    · exact h.active hs e he
    · rw [List.mem_singleton.mp he]

/-- A new participant comes into both, and an enlistment that fails does so in both. -/
lemma Recalls.enlist (h : t.Recalls t') (hnew : ∀ u, t.enlist a ≠ .ok (false, u)) :
    Answers ((t.enlist a).map (·.2)) ((t'.enlist a).map (·.2)) := by
  unfold Transaction.enlist at hnew ⊢
  by_cases hs : t.status = .active
  · have hs' : t'.status = .active := h.status ▸ hs
    rw [if_neg (not_not.mpr hs)] at hnew ⊢
    rw [if_neg (not_not.mpr hs'), ← h.any]
    split
    next ha =>
      rw [if_pos ha] at hnew
      exact absurd rfl (hnew _)
    next =>
      have hagent := h.lastAgent
      by_cases hp : a.twoPhase
      · rw [if_pos hp, if_pos hp]
        exact .ok (h.concat a)
      · rw [if_neg hp, if_neg hp]
        cases he : t.resources.find? (fun e => !e.adapter.twoPhase) with
        | none =>
          rw [he, Option.map_none, eq_comm, Option.map_eq_none_iff] at hagent
          rw [hagent]
          exact .ok (h.concat a)
        | some e =>
          rw [he, Option.map_some, eq_comm, Option.map_eq_some_iff] at hagent
          -- the last agent is the same in both, and so is the error that names it
          obtain ⟨e', he', hid⟩ := hagent
          rw [he']
          dsimp only
          rw [hid, h.id]
          exact .error _
  · have hs' : ¬t'.status = .active := h.status ▸ hs
    rw [if_pos hs, if_pos hs', h.id, h.status]
    exact .error _

/-- That a participant is associated again may be left out. -/
lemma Recalls.enlist_left (h : t.Recalls t') (ha : t.enlist a = .ok (false, u)) : u.Recalls t' := by
  unfold Transaction.enlist at ha
  split at ha
  next => cases ha
  next hs =>
    split at ha
    next =>
      cases ha
      have hnone := h.active (h.status ▸ not_not.mp hs)
      refine ⟨?_, Enlisted.updateFirst_left h.resources _ fun e e' he' he => ?_, h.active⟩
      · dsimp only
        rw [h.same]
      · exact ⟨by rw [he.same], fun _ => hnone e' he'⟩
    next => split at ha <;> cases ha

/-- That an association is ended in success may be left out. -/
lemma Recalls.delist_left {k : AdapterKey} {found : Bool} (h : t.Recalls t')
    (ha : t.delist k .success = .ok (found, u)) : u.Recalls t' := by
  unfold Transaction.delist at ha
  split at ha
  next => cases ha
  next =>
    split at ha
    next =>
      cases ha
      exact h
    next =>
      split at ha
      next =>
        cases ha
        exact h
      next =>
        cases ha
        refine ⟨?_, Enlisted.updateFirst_left h.resources _ fun e e' he' he => ?_, h.active⟩
        · dsimp only
          rw [h.same]
        · exact ⟨by rw [he.same], nofun⟩

/-- An association that is found ended is left as it is. -/
lemma delist_eq_self {k : AdapterKey} {flag : DelistFlag} (ha : t.delist k flag = .ok (false, u)) :
    u = t := by
  unfold Transaction.delist at ha
  split at ha
  next => cases ha
  next =>
    split at ha
    next =>
      cases ha
      rfl
    next =>
      split at ha
      next =>
        cases ha
        rfl
      next => cases flag <;> cases ha

/-- An association that is ended with a failure in the first is ended so in the second, unless it
was found ended. -/
lemma Recalls.delist {k : AdapterKey} (h : t.Recalls t')
    (hlate : ∀ u, t.delist k .fail = .ok (false, u) →
      t.resources.any (Enlisted.matches k) = false) :
    Answers ((t.delist k .fail).map (·.2)) ((t'.delist k .fail).map (·.2)) := by
  unfold Transaction.delist at hlate ⊢
  have hguard : (t'.status ≠ .active ∧ t'.status ≠ .markedRollback) ∨ t'.completing ↔
      (t.status ≠ .active ∧ t.status ≠ .markedRollback) ∨ t.completing := by
    rw [h.status, h.completing]
  by_cases hs : (t.status ≠ .active ∧ t.status ≠ .markedRollback) ∨ t.completing
  · rw [if_pos hs, if_pos (hguard.mpr hs), h.id, h.status]
    exact .error _
  · rw [if_neg hs] at hlate ⊢
    rw [if_neg (mt hguard.mp hs)]
    rcases Enlisted.find?_of_forall₂ h.resources k with ⟨he, he'⟩ | ⟨e, e', he, he', hrecalls⟩
    · rw [he, he']
      exact .ok h
    · rw [he] at hlate ⊢
      rw [he']
      dsimp only at hlate ⊢
      by_cases hd : e.delisted.isSome
      · rw [if_pos hd] at hlate
        have hnone := hlate t rfl
        rw [List.any_eq_false] at hnone
        exact absurd (List.find?_some he) (hnone e (List.mem_of_find?_eq_some he))
      · have hd' : ¬e'.delisted.isSome := by
          rw [hrecalls.ended (Option.not_isSome_iff_eq_none.mp hd)]
          exact Bool.false_ne_true
        rw [if_neg hd, if_neg hd', hrecalls.adapter]
        refine .ok ⟨?_, ?_, nofun⟩
        · rw [h.same]
          rfl
        · exact Enlisted.updateFirst_of_forall₂ h.resources k fun x y hxy =>
            ⟨by rw [hxy.same], nofun⟩

end Transaction

/-! ### Systems -/

/-- The same system, but that in the first transactions may recall more ended associations. -/
structure System.Recalls (s s' : System) : Prop where
  same : s = { s' with transactions := s.transactions }
  size : s.transactions.size = s'.transactions.size
  tx : ∀ r, (s.tx r).Recalls (s'.tx r)

namespace System

variable {s s' : System} {r : TxRef} {m : ManagerRef}

lemma Recalls.clock (h : s.Recalls s') : s.clock = s'.clock := by
  rw [h.same]

lemma Recalls.manager (h : s.Recalls s') (m : ManagerRef) : s.manager m = s'.manager m := by
  rw [h.same]
  rfl

/-- Both change alike, and not in their transactions. -/
lemma Recalls.map (h : s.Recalls s') {f : System → System}
    (hf : ∀ (s : System) (txs : Array Transaction),
      f { s with transactions := txs } = { f s with transactions := txs }) :
    (f s).Recalls (f s') := by
  have htransactions : ∀ s, (f s).transactions = s.transactions := fun s => by
    have hs : f s = { f s with transactions := s.transactions } := hf s s.transactions
    rw [hs]
  have htx : ∀ s r, (f s).tx r = s.tx r := fun s r => by rw [System.tx, htransactions, System.tx]
  refine ⟨?_, ?_, fun r => ?_⟩
  · rw [htransactions s, ← hf, ← h.same]
  · rw [htransactions, htransactions, h.size]
  · rw [htx, htx]
    exact h.tx r

lemma Recalls.modifyManager (h : s.Recalls s') (m : ManagerRef) (f : Manager → Manager) :
    (s.modifyManager m f).Recalls (s'.modifyManager m f) :=
  h.map (f := fun s => s.modifyManager m f) fun _ _ => rfl

lemma Recalls.modifyTx (h : s.Recalls s') {f g : Transaction → Transaction}
    (hf : (f (s.tx r)).Recalls (g (s'.tx r))) : (s.modifyTx r f).Recalls (s'.modifyTx r g) where
  same := by
    obtain ⟨txs, rfl⟩ : ∃ txs, s = { s' with transactions := txs } := ⟨_, h.same⟩
    rfl
  size := by rw [size_modifyTx, size_modifyTx, h.size]
  tx q := by
    rw [tx_modifyTx, tx_modifyTx, h.size]
    split
    next hq =>
      rw [hq.1]
      exact hf
    next => exact h.tx q

lemma Recalls.changeTx (h : s.Recalls s') {x y : Except TxError Transaction}
    (hx : Transaction.Answers x y) : (s.changeTx r x).Recalls (s'.changeTx r y) := by
  cases hx with
  | error e => exact h
  | ok ht => exact h.modifyTx ht

/-- What changes in the first only. -/
lemma Recalls.left (h : s.Recalls s') {t : Transaction} (ht : t.Recalls (s'.tx r)) :
    (s.modifyTx r fun _ => t).Recalls s' := by
  have hself := h.modifyTx (r := r) (f := fun _ => t) (g := fun t => t) ht
  rwa [modifyTx_eq_self (s := s') (f := fun t => t) rfl] at hself

lemma Recalls.push (h : s.Recalls s') (timeout : Option Duration) :
    (s.push timeout).Recalls (s'.push timeout) where
  same := by
    obtain ⟨txs, rfl⟩ : ∃ txs, s = { s' with transactions := txs } := ⟨_, h.same⟩
    rfl
  size := by rw [size_push, size_push, h.size]
  tx r := by
    rcases lt_trichotomy r s.transactions.size with hr | rfl | hr
    · rw [tx_push_of_lt _ hr, tx_push_of_lt _ (h.size ▸ hr)]
      exact h.tx r
    · rw [tx_push_self, h.size, tx_push_self, h.same]
      exact .refl (by simp)
    · rw [tx_of_size_le (s := s.push timeout) (by rw [size_push]; exact hr),
        tx_of_size_le (s := s'.push timeout) (by rw [size_push, ← h.size]; exact hr)]
      exact .refl nofun

lemma Recalls.expireIfDue (h : s.Recalls s') (m : ManagerRef) (r : TxRef) :
    (s.expireIfDue m r).2.Recalls (s'.expireIfDue m r).2 := by
  unfold System.expireIfDue
  rw [(h.tx r).isDue, h.clock]
  split
  · exact (h.modifyTx (h.tx r).expire).modifyManager m _
  · exact h

lemma Recalls.inFlight? (h : s.Recalls s') (m : ManagerRef) (id : TxId) :
    s.inFlight? m id = s'.inFlight? m id := by
  unfold System.inFlight?
  rw [h.manager]
  congr 1
  funext r
  rw [(h.tx r).id]

lemma Recalls.begin (h : s.Recalls s') (m : ManagerRef) (timeout : Option Duration) :
    (∃ e, s.begin m timeout = .error e ∧ s'.begin m timeout = .error e) ∨
    ∃ r t t', s.begin m timeout = .ok (r, t) ∧ s'.begin m timeout = .ok (r, t') ∧ t.Recalls t' := by
  by_cases hm : (s.manager m).active < (s.manager m).config.maxActive
  · have hm' : (s'.manager m).active < (s'.manager m).config.maxActive := h.manager m ▸ hm
    refine .inr ⟨_, _, _, if_pos hm, ?_, (h.push _).modifyManager m (·.enroll s.transactions.size)⟩
    rw [h.manager, h.size]
    exact if_pos hm'
  · have hm' : ¬(s'.manager m).active < (s'.manager m).config.maxActive := h.manager m ▸ hm
    refine .inl ⟨_, if_neg hm, ?_⟩
    rw [h.manager]
    exact if_neg hm'

end System

/-! ### Operations -/

variable {s s' : System}

/-- An operation that is done in both. -/
lemma Operation.recalls_apply (h : s.Recalls s') {o : Operation}
    (henlist : ∀ r a, o = .enlist r a → ∀ u, (s.tx r).enlist a ≠ .ok (false, u))
    (hdelist : ∀ r k flag, o = .delist r k flag → flag = .fail ∧
      ∀ u, (s.tx r).delist k .fail = .ok (false, u) →
        (s.tx r).resources.any (Enlisted.matches k) = false) :
    (o.apply s).Recalls (o.apply s') := by
  cases o with
  | wait nanos =>
    exact h.map (f := fun s => { s with clock := s.clock + nanos }) fun _ _ => rfl
  | addManager config log =>
    exact h.map (f := fun s => (s.addManager config log).2) fun _ _ => rfl
  | begin m timeout =>
    rw [apply, apply]
    rcases h.begin m timeout with ⟨e, hs, hs'⟩ | ⟨r, t, t', hs, hs', ht⟩
    · rw [hs, hs']
      exact h
    · rw [hs, hs']
      exact ht
  | enlist r a => exact h.changeTx ((h.tx r).enlist (henlist r a rfl))
  | delist r k flag =>
    obtain ⟨rfl, hlate⟩ := hdelist r k flag rfl
    exact h.changeTx ((h.tx r).delist hlate)
  | register r x interposed => exact h.changeTx ((h.tx r).register x interposed)
  | mark r => exact h.changeTx ((h.tx r).markRollbackOnly _)
  | force m id =>
    rw [apply, apply, System.force, System.force, h.inFlight?]
    cases s'.inFlight? m id with
    | none => exact h
    | some r =>
      have ht := (h.tx r).markRollbackOnly .forced
      dsimp only
      generalize (s.tx r).markRollbackOnly .forced = x, (s'.tx r).markRollbackOnly .forced = y at ht
      cases ht with
      | error e => exact h
      | ok ht => exact h.modifyTx ht
  | expire m r => exact h.expireIfDue m r

/-! ### Contexts -/

lemma Context.held?_eq_none_iff (h : s.Recalls s') (c : Context) :
    c.held? s = none ↔ c.held? s' = none := by
  unfold Context.held?
  cases c.current with
  | none => exact Iff.rfl
  | some r => simp [(h.tx r).status]

/-- What a task does to its context and through it is done in both. -/
lemma ContextOperation.recalls_apply (h : s.Recalls s') (c : Context) (o : ContextOperation) :
    (o.apply c s).1 = (o.apply c s').1 ∧ (o.apply c s).2.Recalls (o.apply c s').2 := by
  cases o with
  | begin =>
    rw [apply, apply, Context.begin, Context.begin]
    have hheld := c.held?_eq_none_iff h
    cases hh : c.held? s with
    | some t =>
      cases hh' : c.held? s' with
      | some t' => exact ⟨rfl, h⟩
      | none => simp [hheld.mpr hh'] at hh
    | none =>
      rw [hheld.mp hh]
      dsimp only
      rcases h.begin c.manager c.timeout with ⟨e, hs, hs'⟩ | ⟨r, t, t', hs, hs', ht⟩
      · rw [hs, hs']
        exact ⟨rfl, h⟩
      · rw [hs, hs']
        have hclaim := (ht.tx r).claim (k := c.task)
        simp only [bind, Except.bind]
        generalize (t.tx r).claim c.task = x, (t'.tx r).claim c.task = y at hclaim
        cases hclaim with
        | error e => exact ⟨rfl, h⟩
        | ok hx => exact ⟨rfl, ht.modifyTx hx⟩
  | mark =>
    rw [apply, apply, Context.setRollbackOnly, Context.setRollbackOnly]
    cases c.current with
    | none => exact ⟨rfl, h⟩
    | some r =>
      have ht := (h.tx r).markRollbackOnly .markedRollbackOnly
      dsimp only
      generalize (s.tx r).markRollbackOnly _ = x, (s'.tx r).markRollbackOnly _ = y at ht
      cases ht with
      | error e => exact ⟨rfl, h⟩
      | ok ht => exact ⟨rfl, h.modifyTx ht⟩
  | suspend =>
    rw [apply, apply, Context.suspend, Context.suspend]
    cases c.current with
    | none => exact ⟨rfl, h⟩
    | some r => exact ⟨rfl, h.modifyTx ((h.tx r).release c.task)⟩
  | resume r =>
    rw [apply, apply, Context.resume, Context.resume]
    have hheld := c.held?_eq_none_iff h
    cases hh : c.held? s with
    | some t =>
      cases hh' : c.held? s' with
      | some t' => exact ⟨rfl, h⟩
      | none => simp [hheld.mpr hh'] at hh
    | none =>
      rw [hheld.mp hh]
      dsimp only
      rw [(h.tx r).status]
      by_cases hs : (s'.tx r).status.isTerminal
      · rw [if_pos hs, if_pos hs]
        exact ⟨rfl, h⟩
      · rw [if_neg hs, if_neg hs]
        have ht := (h.tx r).claim (k := c.task)
        generalize (s.tx r).claim c.task = x, (s'.tx r).claim c.task = y at ht
        cases ht with
        | error e => exact ⟨rfl, h⟩
        | ok ht => exact ⟨rfl, h.modifyTx ht⟩
  | setTimeout timeout => exact ⟨rfl, h⟩

end TwoPhaseCommit
