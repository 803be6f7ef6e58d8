import TwoPhaseCommit.Proofs.Admission

/-!
# Transactions in flight

A transaction comes into the list of one manager when it is begun, and it leaves that list when its
completion strikes it out. So no list has it twice, no two lists have it, and it does not come back
(`System.Relists`).
-/

namespace TwoPhaseCommit

namespace System

variable {s t : System} {m k : ManagerRef} {r : TxRef}

/-- What happens to the lists in one step: some transactions are struck, or a new one comes in. -/
inductive Relists (s t : System) : Prop
  | strikes (hs : s.transactions.size ≤ t.transactions.size)
      (h : ∀ k, (t.manager k).registered.Sublist (s.manager k).registered)
  | enrolls (m : ManagerRef) (hs : s.transactions.size < t.transactions.size)
      (h : ∀ k, (t.manager k).registered.Sublist
        ((s.manager k).registered ++ if k = m then [s.transactions.size] else []))

/-- What is listed was begun, and is listed once. -/
structure Listed (s : System) : Prop where
  nodup : ∀ m, (s.manager m).registered.Nodup
  refers : ∀ m, ∀ r ∈ (s.manager m).registered, r < s.transactions.size
  alone : ∀ m k, ∀ r ∈ (s.manager m).registered, r ∈ (s.manager k).registered → m = k

/-- Only a new transaction can come in. -/
lemma Relists.mem_or_eq (h : s.Relists t) (hr : r ∈ (t.manager k).registered) :
    r ∈ (s.manager k).registered ∨ r = s.transactions.size := by
  cases h with
  | strikes _ h => exact .inl ((h k).subset hr)
  | enrolls m _ h =>
    refine (List.mem_append.mp ((h k).subset hr)).imp_right fun hr => ?_
    split at hr
    · exact List.mem_singleton.mp hr
    · cases hr

lemma Relists.mem (h : s.Relists t) (hlt : r < s.transactions.size)
    (hr : r ∈ (t.manager k).registered) : r ∈ (s.manager k).registered :=
  (h.mem_or_eq hr).resolve_right hlt.ne

lemma Listed.relists (hs : s.Listed) (h : s.Relists t) : t.Listed := by
  have hfresh : ∀ k, s.transactions.size ∉ (s.manager k).registered :=
    fun k hm => (hs.refers k _ hm).false
  cases h with
  | strikes hsize h =>
    exact ⟨fun m => (hs.nodup m).sublist (h m),
      fun m r hr => (hs.refers m r ((h m).subset hr)).trans_le hsize,
      fun m k r hm hk => hs.alone m k r ((h m).subset hm) ((h k).subset hk)⟩
  | enrolls m hsize h =>
    -- the new reference is the size, so it was in no list before
    have hnew : ∀ k, s.transactions.size ∈ (t.manager k).registered → k = m := by
      intro k hk
      have hmem := (List.mem_append.mp ((h k).subset hk)).resolve_left (hfresh k)
      split at hmem
      next hkm => exact hkm
      next => cases hmem
    have hcases : ∀ k, ∀ r ∈ (t.manager k).registered,
        r ∈ (s.manager k).registered ∨ r = s.transactions.size :=
      fun k r hr => Relists.mem_or_eq (.enrolls m hsize h) hr
    refine ⟨fun k => List.Nodup.sublist (h k) ?_, fun k r hr => ?_, fun k l r hk hl => ?_⟩
    · refine List.nodup_append.mpr ⟨hs.nodup k, by split <;> simp, ?_⟩
      rintro r hr q hq rfl
      split at hq
      · exact hfresh k (List.mem_singleton.mp hq ▸ hr)
      · cases hq
    · rcases hcases k r hr with hr | rfl
      · exact (hs.refers k r hr).trans hsize
      · exact hsize
    · rcases hcases k r hk with hk' | rfl
      · rcases hcases l r hl with hl' | rfl
        · exact hs.alone k l r hk' hl'
        · exact absurd hk' (hfresh k)
      · exact (hnew k hk).trans (hnew l hl).symm

/-! ### Steps of a system -/

lemma relists_of_registered_eq (hs : s.transactions.size ≤ t.transactions.size)
    (h : ∀ k, (t.manager k).registered = (s.manager k).registered) : s.Relists t :=
  .strikes hs fun k => h k ▸ List.Sublist.refl _

@[refl] lemma Relists.refl (s : System) : s.Relists s :=
  relists_of_registered_eq le_rfl fun _ => rfl

lemma relists_modifyTx (s : System) (r : TxRef) (f : Transaction → Transaction) :
    s.Relists (s.modifyTx r f) :=
  relists_of_registered_eq (size_modifyTx ..).ge fun _ => rfl

/-- Another change to transactions concerns no list. -/
lemma Relists.modifyTx (h : s.Relists t) (r : TxRef) (f : Transaction → Transaction) :
    s.Relists (t.modifyTx r f) := by
  cases h with
  | strikes hs h => exact .strikes ((size_modifyTx t r f).symm ▸ hs) h
  | enrolls m hs h => exact .enrolls m ((size_modifyTx t r f).symm ▸ hs) h

lemma sublist_modifyManager {f : Manager → Manager}
    (hf : ∀ x : Manager, (f x).registered.Sublist x.registered) (k : ManagerRef) :
    ((s.modifyManager m f).manager k).registered.Sublist (s.manager k).registered := by
  rw [manager_modifyManager]
  split
  · exact hf _
  · exact List.Sublist.refl _

lemma relists_modifyManager {f : Manager → Manager}
    (hf : ∀ x : Manager, (f x).registered.Sublist x.registered) : s.Relists (s.modifyManager m f) :=
  .strikes le_rfl (sublist_modifyManager hf)

/-- A manager that is new has listed nothing, as one that there is not. -/
lemma relists_addManager (s : System) (config : CoordinatorConfig) (log : LogRef) :
    s.Relists (s.addManager config log).2 := by
  refine relists_of_registered_eq le_rfl fun k => ?_
  simp only [addManager, manager, Array.getD_eq_getD_getElem?, Array.getElem?_push]
  split
  next hk =>
    rw [hk, Array.getElem?_eq_none le_rfl]
    rfl
  next => rfl

lemma relists_begin {timeout : Option Duration} (h : s.begin m timeout = .ok (r, t)) :
    s.Relists t := by
  obtain ⟨-, -, timeout', rfl⟩ := begin_ok h
  refine .enrolls m (by simp [modifyManager]) fun k => ?_
  rw [manager_modifyManager]
  split
  next hk => rw [if_pos hk.1]; exact List.Sublist.refl _
  next => exact List.sublist_append_left ..

lemma relists_expireIfDue (s : System) (m : ManagerRef) (r : TxRef) :
    s.Relists (s.expireIfDue m r).2 := by
  unfold expireIfDue
  split
  · exact .strikes (size_modifyTx ..).ge
      (sublist_modifyManager (s := s.modifyTx r Transaction.expire) fun _ => List.Sublist.refl _)
  · exact .refl s

lemma relists_unregister (c : Completion) (outcome : Status) (s : System) :
    s.Relists (c.unregister outcome s) := by
  refine relists_modifyManager fun x => ?_
  split
  · exact List.erase_sublist
  · exact List.Sublist.refl _

/-- What was struck is listed no more. -/
lemma Listed.not_mem_unregister (hs : s.Listed) (c : Completion) (outcome : Status) :
    c.tx ∉ ((c.unregister outcome s).manager c.manager).registered := by
  rw [Completion.unregister, manager_modifyManager]
  split
  next =>
    split
    next => exact fun hm => ((hs.nodup c.manager).mem_erase_iff.mp hm).1 rfl
    next hn => exact hn
  next hm =>
    have hdefault : s.manager c.manager = default := by
      have hsize : s.managers.size ≤ c.manager := not_lt.mp fun hlt => hm ⟨rfl, hlt⟩
      simp [manager, hsize]
    rw [hdefault]
    exact List.not_mem_nil

end System

lemma Operation.Touches.relists {s t : System} {o : Operation} (h : Touches s o t) :
    s.Relists t := by
  cases h with
  | nothing => exact .refl s
  | waited _ => exact System.relists_of_registered_eq le_rfl fun _ => rfl
  | added config log => exact System.relists_addManager s config log
  | began hb => exact System.relists_begin hb
  | enlisted _ | delisted _ | registered _ | marked _ | forced _ _ =>
    exact System.relists_modifyTx ..
  | looked m r => exact System.relists_expireIfDue s m r

lemma Context.Touches.relists {c c' : Context} {s t : System} (h : c.Touches s c' t) :
    s.Relists t := by
  cases h with
  | nothing _ => exact .refl s
  | began _ hb _ => exact (System.relists_begin hb).modifyTx ..
  | claimed _ _ _ | released _ | marked _ => exact System.relists_modifyTx ..

lemma Request.Harmless.relists {m : ManagerRef} {r : TxRef} {how : Ending} {s t : System}
    (h : Harmless m r how s t) : s.Relists t := by
  cases h with
  | nothing => exact .refl s
  | released _ => exact System.relists_modifyTx ..
  | expired _ _ => exact System.relists_expireIfDue s m r

lemma Completion.Acts.relists {c : Completion} {g g' : Diary} {s t : System}
    (h : c.Acts g s t g') : s.Relists t := by
  cases h with
  | moves _ _ => exact System.relists_modifyTx ..
  | strikes _ => exact System.relists_unregister c _ s
  | counts _ => exact System.relists_modifyManager fun _ => List.Sublist.refl _

/-! ### In a program -/

namespace Machine

variable {M M' : Machine} {m : ManagerRef} {r : TxRef}

lemma Reachable.relists (hM : M.Reachable) (hs : Step M M') : M.system.Relists M'.system := by
  cases hM.alters hs with
  | operated o => exact (o.touches_apply M.system).relists
  | opened m hs =>
    rw [hs]
    exact System.relists_of_registered_eq le_rfl fun _ => rfl
  | used h => exact h.relists
  | harmless h => exact h.relists
  | admitted _ _ hs =>
    rw [hs]
    exact System.relists_modifyTx ..
  | acted _ _ _ _ _ h => exact h.relists

lemma Reachable.listed (hM : M.Reachable) : M.system.Listed := by
  refine hM.invariant (P := fun M => M.system.Listed) (fun clock seed => ?_)
    fun M M' hM h hs => h.relists (hM.relists hs)
  have hempty : ∀ m, ((initial clock seed).system.manager m).registered = [] := fun _ => rfl
  refine ⟨fun m => ?_, fun m r hr => ?_, fun m k r hr => ?_⟩
  · rw [hempty]
    exact List.nodup_nil
  · rw [hempty] at hr
    cases hr
  · rw [hempty] at hr
    cases hr

/-- What is listed later was listed already. -/
lemma Reachable.mem_registered (hM : M.Reachable) (hs : M.Steps M')
    (hr : r < M.system.transactions.size) (h : r ∈ (M'.system.manager m).registered) :
    r ∈ (M.system.manager m).registered := by
  induction hs with
  | refl => exact h
  | tail hs hstep ih =>
    have hlt := hr.trans_le (hM.grows hs).size_le
    exact ih (((hM.steps hs).relists hstep).mem hlt h)

/-- What was in flight at one manager, and is not any more, is in flight at none. -/
lemma Reachable.not_in_flight (hM : M.Reachable) (hs : M.Steps M')
    (hr : r ∈ (M.system.manager m).registered) (hn : r ∉ (M'.system.manager m).registered)
    (k : ManagerRef) : r ∉ (M'.system.manager k).registered := by
  intro hk
  have hlisted := hM.listed
  have hk' := hM.mem_registered hs (hlisted.refers m r hr) hk
  obtain rfl := hlisted.alone m k r hr hk'
  exact hn hk

end Machine

end TwoPhaseCommit
