import TwoPhaseCommit.Proofs.Opening
import TwoPhaseCommit.Scenario.Perform

/-!
# Services that a script opens

A script opens a service among actors that it has given orders to. If none of these takes steps of
its own from within a call, the opening is an attempt (`Scenario.World.attempt_of_openService`): the
log of the service is asked by recovery alone, and nobody else comes near the files.
-/

namespace TwoPhaseCommit

variable {ref : LogRef} {es : List Exchange} {g : Registry} {fs fs' : FileStore} {l l' : Log}

/-! ### The questions of recovery -/

/-- Recovery asks adapters and its log, and does not append. -/
def Question.IsRecovery (ref : LogRef) : Question → Prop
  | .commit .. | .rollback .. | .inDoubt _ => True
  | .readAll log | .replace log _ => log = ref
  | _ => False

lemma Log.Serves.append {es₁ es₂ : List Exchange} {l₁ : Log} {fs₁ : FileStore}
    (h : Log.Serves ref es₁ l fs l₁ fs₁) (h' : Log.Serves ref es₂ l₁ fs₁ l' fs') :
    Log.Serves ref (es₁ ++ es₂) l fs l' fs' := by
  induction h with
  | nil => exact h'
  | aside hx _ ih => exact .aside hx (ih h')
  | readAll hy _ ih => exact .readAll hy (ih h')
  | replaced hr _ ih => exact .replaced hr (ih h')
  | refused hr _ ih => exact .refused hr (ih h')

namespace Recovery

lemma isRecovery_delivery (ref : LogRef) (a : AdapterKey) (tx : TxId) (d : Decision)
    (x : Except ResourceError Unit) : (delivery a tx d x).question.IsRecovery ref := by
  cases d <;> trivial

lemma RedrivesAll.isRecovery {rs kept : List LogRecord} {st st' : RecoveryStats}
    (h : RedrivesAll g rs st es kept st') (ref : LogRef) : ∀ x ∈ es, x.question.IsRecovery ref := by
  intro x hx
  obtain ⟨r, -, a, y, rfl⟩ := h.told x hx
  exact isRecovery_delivery ..

lemma SettlesAll.isRecovery {folded : List LogRecord} {st st' : RecoveryStats}
    (h : SettlesAll folded g st es st') (ref : LogRef) : ∀ x ∈ es, x.question.IsRecovery ref := by
  intro x hx
  rcases h.told x hx with ⟨a, y, rfl⟩ | ⟨a, tx, y, rfl, -⟩
  · trivial
  · exact isRecovery_delivery ..

lemma Recovers.isRecovery {x : Except StorageError RecoveryStats} (h : Recovers ref g es x) :
    ∀ y ∈ es, y.question.IsRecovery ref := by
  cases h with
  | unreadable e => exact List.forall_mem_singleton.mpr rfl
  | unchanged h h' =>
    exact List.forall_mem_cons.mpr ⟨rfl, List.forall_mem_append.mpr
      ⟨h.isRecovery ref, h'.isRecovery ref⟩⟩
  | refused e hk h =>
    exact List.forall_mem_cons.mpr ⟨rfl, List.forall_mem_append.mpr
      ⟨h.isRecovery ref, List.forall_mem_singleton.mpr rfl⟩⟩
  | replaced hk h h' =>
    exact List.forall_mem_cons.mpr ⟨rfl, List.forall_mem_append.mpr
      ⟨h.isRecovery ref, List.forall_mem_cons.mpr ⟨rfl, h'.isRecovery ref⟩⟩⟩

end Recovery

namespace Scenario.World

variable {α : Type} {step : Stepper} {w : World}

/-! ### Answers -/

/-- No adapter takes steps from within a call. -/
def Undisturbed (w : World) : Prop := ∀ (i : Nat) (x : Actor), w.actors[i]? = some x → x.hooks = []

/-- An adapter that takes no steps leaves the files, the logs and the service. -/
lemma callActor_undisturbed (step : Stepper) (h : w.Undisturbed) (a : AdapterKey) (p : HookPoint)
    (tx : TxId) (call : Call) (agree : α) {f : Actor → α × Actor}
    (hf : ∀ x : Actor, (f x).2.hooks = x.hooks) :
    (w.callActor step a p tx call agree f).2.files = w.files ∧
      (w.callActor step a p tx call agree f).2.logs = w.logs ∧
      (w.callActor step a p tx call agree f).2.service = w.service ∧
      (w.callActor step a p tx call agree f).2.Undisturbed := by
  rw [callActor]
  cases hx : w.actors[a.ref]? with
  | none => exact ⟨rfl, rfl, rfl, h⟩
  | some x =>
    dsimp only
    split
    next => exact ⟨rfl, rfl, rfl, h⟩
    next =>
      -- an adapter without steps to take has none left after the call
      have hhooks : (f x).2.hooks = [] := (hf x).trans (h _ _ hx)
      have htake : (f x).2.takeHooks p = ([], { (f x).2 with hooks := [] }) := by
        rw [Actor.takeHooks, hhooks]
        rfl
      rw [htake]
      refine ⟨rfl, rfl, rfl, fun i y hy => ?_⟩
      change (w.actors.setIfInBounds a.ref { (f x).2 with hooks := [] })[i]? = some y at hy
      rw [Array.getElem?_setIfInBounds] at hy
      split at hy
      next =>
        split at hy
        next =>
          obtain rfl := Option.some.inj hy
          rfl
        next => cases hy
      next => exact h i y hy

lemma commit_hooks (tx : TxId) (x : Actor) : (x.commit tx).2.hooks = x.hooks := by
  rw [Actor.commit]
  split <;> rfl

lemma rollback_hooks (tx : TxId) (x : Actor) : (x.rollback tx).2.hooks = x.hooks := by
  rw [Actor.rollback]
  split <;> rfl

/-- What a log is asked it is asked among the files. -/
lemma onLog_of_ok {β : Type} {f : Log → FileM StorageError (β × Log)} {b : β}
    (hl : w.logs[ref]? = some l) (hf : (f l).exec w.files = (.ok (b, l'), fs)) :
    w.onLog ref f = (.ok b, { w with files := fs, logs := w.logs.setIfInBounds ref l' }) := by
  rw [onLog, hl]
  dsimp only
  rw [hf]

lemma onLog_of_error {β : Type} {f : Log → FileM StorageError (β × Log)} {e : StorageError}
    (hl : w.logs[ref]? = some l) (hf : (f l).exec w.files = (.error e, fs)) :
    w.onLog ref f = (.error e, { w with files := fs }) := by
  rw [onLog, hl]
  dsimp only
  rw [hf]

/-- An answer to recovery. -/
lemma serves_answer (step : Stepper) {q : Question} (hq : q.IsRecovery ref) (hw : w.Undisturbed)
    (hl : w.logs[ref]? = some l) :
    ∃ l', Log.Serves ref [⟨q, (answer step q w).1⟩] l w.files l' (answer step q w).2.files ∧
      (answer step q w).2.logs[ref]? = some l' ∧ (answer step q w).2.service = w.service ∧
      (answer step q w).2.Undisturbed := by
  have hset (l' : Log) : (w.logs.setIfInBounds ref l')[ref]? = some l' := by
    have hlt : ref < w.logs.size := (Array.getElem?_eq_some_iff.mp hl).1
    rw [Array.getElem?_setIfInBounds, if_pos rfl, if_pos hlt]
  cases q with
  | prepare | append | beforeCompletion | afterCompletion | turn => exact hq.elim
  | commit a tx onePhase =>
    obtain ⟨hfiles, hlogs, hservice, hw'⟩ := callActor_undisturbed step hw a .commit tx
      (.commit onePhase) (.ok ()) (commit_hooks tx)
    refine ⟨l, .aside rfl ?_, ?_, hservice, hw'⟩
    · rw [answer, hfiles]
      exact .nil l _
    · rw [answer, hlogs, hl]
  | rollback a tx =>
    obtain ⟨hfiles, hlogs, hservice, hw'⟩ := callActor_undisturbed step hw a .rollback tx
      .rollback (.ok ()) (rollback_hooks tx)
    refine ⟨l, .aside rfl ?_, ?_, hservice, hw'⟩
    · rw [answer, hfiles]
      exact .nil l _
    · rw [answer, hlogs, hl]
  | inDoubt a => exact ⟨l, .aside rfl (.nil l _), hl, rfl, hw⟩
  | readAll log =>
    obtain rfl : log = ref := hq
    cases hx : l.readAll.exec w.files with
    | mk y fs =>
      cases y with
      | error e =>
        have hanswer : answer step (.readAll log) w = (.error e, { w with files := fs }) :=
          onLog_of_error hl (FileM.exec_bind_of_error _ hx)
        rw [hanswer]
        exact ⟨l, .readAll hx (.nil l fs), hl, rfl, hw⟩
      | ok rs =>
        have hanswer : answer step (.readAll log) w =
            (.ok rs, { w with files := fs, logs := w.logs.setIfInBounds log l }) :=
          onLog_of_ok hl (FileM.exec_bind_of_ok _ hx)
        rw [hanswer]
        exact ⟨l, .readAll hx (.nil l fs), hset l, rfl, hw⟩
  | replace log rs =>
    obtain rfl : log = ref := hq
    cases hx : (l.replace rs).exec w.files with
    | mk y fs =>
      cases y with
      | error e =>
        have hanswer : answer step (.replace log rs) w = (.error e, { w with files := fs }) :=
          onLog_of_error hl (FileM.exec_bind_of_error _ hx)
        rw [hanswer]
        exact ⟨l, .refused hx (.nil l fs), hl, rfl, hw⟩
      | ok l' =>
        have hanswer : answer step (.replace log rs) w =
            (.ok (), { w with files := fs, logs := w.logs.setIfInBounds log l' }) :=
          onLog_of_ok hl (FileM.exec_bind_of_ok _ hx)
        rw [hanswer]
        exact ⟨l', .replaced hx (.nil l' fs), hset l', rfl, hw⟩

/-! ### Dialogues -/

/-- How a world answers in a dialogue. -/
def surroundings (step : Stepper) : Dialogue.Surroundings World := fun q system w =>
  let (a, w') := answer step q { w with system }
  (a, w'.system, w')

/-- A dialogue in a world is one that its log serves, if it asks what recovery asks. -/
lemma exists_serves (step : Stepper) (ref : LogRef) (d : Dialogue α) (w : World) :
    ∃ es, d.Ends (fun _ _ => True) es (d.run (surroundings step) w).2.1
        (d.run (surroundings step) w).1 ∧
      ∀ l, w.Undisturbed → w.logs[ref]? = some l → (∀ x ∈ es, x.question.IsRecovery ref) →
        (d.run (surroundings step) w).2.2.service = w.service ∧
        ∃ l', Log.Serves ref es l w.files l' (d.run (surroundings step) w).2.2.files := by
  induction d generalizing w with
  | done s a => exact ⟨[], .refl _, fun l _ _ _ => ⟨rfl, l, .nil l _⟩⟩
  | ask s q next ih =>
    obtain ⟨es, hends, hserves⟩ := ih (answer step q { w with system := s }).2.system
      (answer step q { w with system := s }).1 (answer step q { w with system := s }).2
    refine ⟨_, .answer trivial hends, fun l hw hl hes => ?_⟩
    have hw : Undisturbed { w with system := s } := hw
    -- to give others their turn is no exchange
    by_cases hturn : q = .turn
    · subst hturn
      exact hserves l hw hl hes
    · rw [Exchange.note_of_ne hturn] at hes ⊢
      rw [List.singleton_append, List.forall_mem_cons] at hes
      obtain ⟨l₁, hfirst, hl₁, hservice, hw₁⟩ := serves_answer step hes.1 hw hl
      obtain ⟨hkept, l', hrest⟩ := hserves l₁ hw₁ hl₁ hes.2
      exact ⟨hkept.trans hservice, l', hfirst.append hrest⟩

/-- What is said in a world, and how its log serves. -/
lemma exists_says (step : Stepper) (ref : LogRef) (p : Proc α) (w : World) :
    ∃ es, p.Says es (w.run step p).1 ∧
      ∀ l, w.Undisturbed → w.logs[ref]? = some l → (∀ x ∈ es, x.question.IsRecovery ref) →
        (w.run step p).2.service = w.service ∧
        ∃ l', Log.Serves ref es l w.files l' (w.run step p).2.files := by
  obtain ⟨es, hends, hserves⟩ := exists_serves step ref (p w.system) w
  exact ⟨es, ⟨_, _, _, hends⟩, hserves⟩

/-! ### Opening a service -/

/-- A script that opens a service makes an attempt. It replies with the error, or has the service in
the place of the one before. -/
theorem attempt_of_openService (hw : w.Undisturbed) (opening : FileM SystemFault Opening)
    (adapters : List AdapterKey) :
    ∃ es result fs', Opening.Attempt opening (Registry.ofList adapters) w.logs.size w.files es
        result fs' ∧
      match result with
      | .error e => (w.openService step opening adapters).1 = .failed e ∧
        (w.openService step opening adapters).2.files = fs' ∧
        (w.openService step opening adapters).2.service = w.service
      | .ok (o, st) => (∃ s, (w.openService step opening adapters).2.service =
          some (Service.ofOpening o st w.logs.size s).1) ∧
        (w.openService step opening adapters).2.files = (dropService { w with files := fs' }).files := by
  rw [openService]
  cases hx : opening.exec w.files with
  | mk taken fs =>
    cases taken with
    | error e => exact ⟨[], .error (.system e), fs, .untaken hx, rfl, rfl, rfl⟩
    | ok o =>
      dsimp only
      have hlog : (w.logs.push o.log)[w.logs.size]? = some o.log := Array.getElem?_push_size
      obtain ⟨es, hsays, hserves⟩ := exists_says step w.logs.size
        (Recovery.recover w.logs.size (Registry.ofList adapters))
        { w with files := fs, logs := w.logs.push o.log }
      obtain ⟨hservice, l', hserves⟩ := hserves o.log hw hlog
        (Recovery.says_recover hsays).isRecovery
      cases hrun : run step (Recovery.recover w.logs.size (Registry.ofList adapters))
        { w with files := fs, logs := w.logs.push o.log } with
      | mk x w₂ =>
        rw [hrun] at hsays hserves hservice
        cases x with
        | error e =>
          exact ⟨es, .error e.toTxError, _, .unrecovered hx hsays hserves, rfl, rfl, hservice⟩
        | ok st =>
          refine ⟨es, .ok (o, st), _, .opened hx hsays hserves, ⟨w₂.system, rfl⟩, ?_⟩
          dsimp only at hservice ⊢
          -- recovery has left the service that was there, which is dropped only now
          rw [installService, dropService, dropService, hservice]
          cases w.service <;> rfl

end Scenario.World

end TwoPhaseCommit
