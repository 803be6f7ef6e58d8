import TwoPhaseCommit.Proofs.Completion
import TwoPhaseCommit.Proofs.Machine

/-!
# Admission

A transaction is taken by the first request that finds it open. That one is inside
(`Request.Inside`), where `Completion.Goes` says what it does; every other one stays outside
(`Request.Outside`), where it asks nothing and changes nothing but for a timeout that is due. The
invariant `Machine.Sound` names the request that has taken each transaction.
-/

namespace TwoPhaseCommit

open Completion (Early Noted Settled reported)

/-! ### What is admitted -/

/-- What is done about a transaction once a request is admitted. -/
inductive Admits (c : Completion) (t : Transaction) : Ending → Proc (Except TxError Unit) → Prop
  | commit (h : t.status = .active) : Admits c t .commit (c.commitActive t.beforeOrder)
  | marked (h : t.status = .markedRollback) : Admits c t .commit (Except.error <$> c.rollBackMarked)
  | rollback : Admits c t .rollback (do c.rollBackAll; return .ok ())

lemma Admits.goes {c : Completion} {t : Transaction} {how : Ending}
    {x : Proc (Except TxError Unit)} (h : Admits c t how x) :
    c.Goes (Noted false 0 Early) x fun result => Noted true (reported result) Settled := by
  cases h with
  | commit _ => exact Completion.goes_commitActive _
  | marked _ =>
    exact ((Completion.goes_rollBackMarked Completion.stable_early fun _ h => h.undoable).weaken
      fun _ _ _ h => h.weaken (·.settled)).map (f := Except.error)
        (Q := fun result => Noted true (reported result) Settled)
  | rollback =>
    exact (Completion.goes_rollBackAll Completion.stable_early fun _ h => h.undoable).bind
      fun _ => Completion.goes_pure fun _ _ h => h.weaken (·.settled)

lemma Admits.proceeds {c : Completion} {t : Transaction} {how : Ending}
    {x : Proc (Except TxError Unit)} (h : Admits c t how x) :
    c.Proceeds Early x fun _ => Settled :=
  h.goes.unnoted

/-- A transaction is taken by the flag alone. -/
def System.take (s : System) (r : TxRef) : System :=
  s.modifyTx r fun t => { t with completing := true }

lemma System.tx_take {s : System} {r : TxRef} (hr : r < s.transactions.size) :
    (s.take r).tx r = { s.tx r with completing := true } :=
  System.tx_modifyTx_self _ hr

lemma System.works_take {s : System} {r : TxRef} (hr : r < s.transactions.size) :
    s.Works r (s.take r) :=
  System.works_modifyTx hr ⟨rfl, rfl, .of_eq rfl rfl rfl rfl⟩ (.inl rfl)

namespace Request

variable {request : Request} {c : Completion} {g : Diary} {m : ManagerRef} {r : TxRef} {id : TxId}
  {how : Ending} {s t : System}

/-- It is the request that took the transaction. -/
def Accepted (request : Request) : Prop :=
  ∃ p ∈ request.steps, (p.1.tx request.tx).Open ∧ (p.2.tx request.tx).Taken

instance (request : Request) : Decidable request.Accepted :=
  inferInstanceAs (Decidable (∃ p ∈ request.steps, _))

/-! ### Requests outside -/

/-- A step that changes no status, no participant and no count, but for a timeout that is due. -/
inductive Harmless (m : ManagerRef) (r : TxRef) (how : Ending) (s : System) : System → Prop
  | nothing : Harmless m r how s s
  | released (k : TaskId) : Harmless m r how s (s.modifyTx r (·.release k))
  | expired (hc : how = .commit) (ha : (s.tx r).status = .active) :
    Harmless m r how s (s.expireIfDue m r).2

/-- The step of a request that is not admitted when it has its turn: it may look at the time. -/
inductive Looks (m : ManagerRef) (r : TxRef) (how : Ending) (s : System) : System → Prop
  | nothing : Looks m r how s s
  | expired (hc : how = .commit) : Looks m r how s (s.expireIfDue m r).2

lemma Looks.harmless (h : Looks m r how s t) : Harmless m r how s t := by
  cases h with
  | nothing => exact .nothing
  | expired hc =>
    by_cases ha : (s.tx r).status = .active
    · exact .expired hc ha
    · have he : (s.expireIfDue m r).2 = s := by simp [System.expireIfDue, Transaction.isDue, ha]
      rw [he]
      exact .nothing

lemma Harmless.bystands (h : Harmless m r how s t) : s.Bystands t := by
  cases h with
  | nothing => exact .refl s
  | released k => exact System.bystands_release r k
  | expired _ _ => exact System.bystands_expireIfDue s m r

lemma Harmless.undisturbed (h : Harmless m r how s t) (hs : (s.tx r).status ≠ .noTransaction) :
    (s.tx r).Undisturbed (t.tx r) :=
  (h.bystands.spares r).undisturbed (System.lt_size_of_status hs)

lemma Harmless.opens (h : Harmless m r how s t) (ho : (s.tx r).Open) : (t.tx r).Open := by
  refine (h.undisturbed ?_).opens ho
  rcases ho.2 with hs | hs <;> simp [hs]

/-- The places of a request that was not admitted, on a transaction of the given id. -/
inductive Station (r : TxRef) (id : TxId) (m : ManagerRef) :
    Ending → Dialogue (Except TxError Unit) → Prop
  | asked (s : System) : Station r id m .commit (Coordinator.commit m r s)
  | atCommit {c : Completion} (s : System) (hr : c.tx = r) (hi : c.id = id) (hm : c.manager = m) :
    Station r id m .commit (c.commit s)
  | atRollback {c : Completion} (s : System) (hr : c.tx = r) (hi : c.id = id) (hm : c.manager = m) :
    Station r id m .rollback (c.rollback s)
  | refused {how : Ending} (s : System) (why : Misuse) :
    Station r id m how (.done s (.error (.illegalState why)))

/-- A request that was not admitted. -/
structure Outside (request : Request) (id : TxId) : Prop where
  station : Station request.tx id request.manager request.how request.progress
  silent : request.exchanges = []
  harmless : ∀ p ∈ request.steps, Harmless request.manager request.tx request.how p.1 p.2

/-- A request that has done nothing, waits for nobody, and is refused if it has come to its end. -/
structure Idle (request : Request) : Prop where
  silent : request.exchanges = []
  harmless : ∀ p ∈ request.steps, Harmless request.manager request.tx request.how p.1 p.2
  waits : ∀ s q next, request.progress = .ask s q next → q = .turn
  refused : ∀ s result, request.progress = .done s result →
    ∃ why, result = .error (.illegalState why)

lemma Station.waits {d : Dialogue (Except TxError Unit)} (h : Station r id m how d)
    {q : Question} {next : System → q.Answer → Dialogue (Except TxError Unit)}
    (hd : d = .ask s q next) : q = .turn := by
  cases h with
  | asked _ => cases hd; rfl
  | atCommit _ _ _ _ => cases hd; rfl
  | atRollback _ _ _ _ => cases hd; rfl
  | refused _ _ => cases hd

lemma Station.result {d : Dialogue (Except TxError Unit)} (h : Station r id m how d)
    {result : Except TxError Unit} (hd : d = .done s result) :
    ∃ why, result = .error (.illegalState why) := by
  cases h with
  | asked _ => cases hd
  | atCommit _ _ _ _ => cases hd
  | atRollback _ _ _ _ => cases hd
  | refused _ why =>
    cases hd
    exact ⟨why, rfl⟩

lemma Outside.idle (h : request.Outside id) : request.Idle :=
  ⟨h.silent, h.harmless, fun _ _ _ hd => h.station.waits hd, fun _ _ hd => h.station.result hd⟩

/-- Nothing that was done outside has taken the transaction. -/
lemma Outside.not_accepted (h : request.Outside id) : ¬request.Accepted := by
  rintro ⟨p, hp, ho, ht⟩
  exact ((h.harmless p hp).opens ho).not_taken ht

/-- What a request outside does next: it stays outside, or it takes an open transaction. -/
lemma Station.resume {d : Dialogue (Except TxError Unit)} (h : Station r id m how d) {s₀ : System}
    {q : Question} {next : System → q.Answer → Dialogue (Except TxError Unit)}
    (hd : d = .ask s₀ q next) (a : q.Answer) (hr : r < s.transactions.size)
    (hi : (s.tx r).id = id) :
    Looks m r how s (next s a).system ∧ Station r id m how (next s a) ∨
    (s.tx r).Open ∧ ∃ c x, c.tx = r ∧ c.id = id ∧ c.manager = m ∧
      Admits c ((s.take r).tx r) how x ∧ next s a = x (s.take r) := by
  cases h with
  | asked _ =>
    cases hd
    have hb := System.bystands_expireIfDue s m r
    have hid := ((hb.spares r).undisturbed hr).grows.id
    exact .inl ⟨.expired rfl,
      .atCommit (c := Completion.of m r (s.expireIfDue m r).2) _ rfl (hid.trans hi) rfl⟩
  | @atCommit c _ hc hi' hm =>
    subst hc
    rw [Completion.commit, Completion.locked_bind] at hd
    cases hd
    -- it is refused, or it takes a transaction that is marked or active
    rcases (s.tx c.tx).admitCommit_cases with ⟨why, he, -⟩ | ⟨he, hf, hs⟩ | ⟨he, hf, hs⟩
    · have hsame : s.modifyTx c.tx (fun x => x.admitCommit.2) = s :=
        System.modifyTx_eq_self (congrArg Prod.snd he)
      left
      dsimp only
      rw [he, hsame]
      exact ⟨.nothing, .refused s why⟩
    · have htake : s.modifyTx c.tx (fun x => x.admitCommit.2) = s.take c.tx :=
        System.modifyTx_congr (congrArg Prod.snd he)
      refine .inr ⟨⟨hf, .inr hs⟩, c, _, rfl, hi', hm, .marked ?_, ?_⟩
      · rw [System.tx_take hr]
        exact hs
      · dsimp only
        rw [he, htake]
    · have htake : s.modifyTx c.tx (fun x => x.admitCommit.2) = s.take c.tx :=
        System.modifyTx_congr (congrArg Prod.snd he)
      refine .inr ⟨⟨hf, .inl hs⟩, c, _, rfl, hi', hm, .commit ?_, ?_⟩
      · rw [System.tx_take hr]
        exact hs
      · dsimp only
        rw [he, htake, System.tx_take hr]
        rfl
  | @atRollback c _ hc hi' hm =>
    subst hc
    rw [Completion.rollback, Completion.locked_bind] at hd
    cases hd
    rcases (s.tx c.tx).admitRollback_cases with ⟨why, he, -⟩ | ⟨he, ho⟩
    · have hsame : s.modifyTx c.tx (fun x => x.admitRollback.2) = s :=
        System.modifyTx_eq_self (congrArg Prod.snd he)
      left
      dsimp only
      rw [he, hsame]
      exact ⟨.nothing, .refused s why⟩
    · have htake : s.modifyTx c.tx (fun x => x.admitRollback.2) = s.take c.tx :=
        System.modifyTx_congr (congrArg Prod.snd he)
      refine .inr ⟨ho, c, _, rfl, hi', hm, .rollback, ?_⟩
      dsimp only
      rw [he, htake]
  | refused _ _ => cases hd

/-! ### Requests inside -/

/-- A transaction is taken. -/
structure Takes (t t' : Transaction) : Prop where
  «open» : t.Open
  marks : t.WellMarked
  eq : t' = { t with completing := true }

lemma Takes.early {t t' : Transaction} (h : Takes t t') : Early t' := by
  obtain ⟨ho, hm, rfl⟩ := h
  have hsame : t.Onward { t with completing := true } := .of_eq rfl rfl rfl rfl
  exact ⟨rfl, ho.2, hsame.marks hm⟩

/-- From the system `s` in which it was admitted, the completion has come to where the request is.
In its steps it first did no harm, then it found the transaction open and took it, and went on. -/
structure Follows (request : Request) (c : Completion) (s : System) : Prop where
  tx : c.tx = request.tx
  manager : c.manager = request.manager
  size : c.tx < s.transactions.size
  runs : ∃ x before u ps, Admits c (s.tx c.tx) request.how x ∧ Takes (u.tx c.tx) (s.tx c.tx) ∧
    (∀ p ∈ before, Harmless request.manager request.tx request.how p.1 p.2) ∧
    request.steps = before ++ (u, (x s).system) :: ps ∧
    (x s).Runs (System.Spares c.tx) request.exchanges ps request.progress

/-- The completion has kept the diary so far, and keeps it on. -/
structure Kept (request : Request) (c : Completion) (g : Diary) : Prop where
  tx : c.tx = request.tx
  manager : c.manager = request.manager
  said : g.said = request.exchanges
  tracks : request.progress.Tracks (System.Spares c.tx) c.Responds
    (fun result g t => c.tx < t.transactions.size ∧
      Noted true (reported result) Settled g (t.tx c.tx)) g

/-- The completion responds to an answer. -/
lemma Kept.resume (h : request.Kept c g) {s₀ : System} {q : Question}
    {next : System → q.Answer → Dialogue (Except TxError Unit)}
    (hp : request.progress = .ask s₀ q next) (hs : s₀.Spares c.tx s) (a : q.Answer) :
    ∃ g', c.Acts (g.hear q a) s (next s a).system g' ∧
      (request.resume q a s (next s a)).Kept c g' := by
  have htracks := h.tracks
  rw [hp] at htracks
  obtain ⟨g', hg, htracks'⟩ := htracks s a hs
  exact ⟨g', hg, h.tx, h.manager, hg.said.trans (congrArg (· ++ _) h.said), htracks'⟩

lemma Kept.continues (h : request.Kept c g) :
    request.progress.Continues (System.Spares request.tx) (System.Works request.tx)
      fun _ t => request.tx < t.transactions.size ∧ Settled (t.tx request.tx) :=
  h.tx ▸ h.tracks.continues (fun _ _ _ _ _ _ hg => hg.works) fun _ _ _ hq => ⟨hq.1, hq.2.holds⟩

/-- A request that was admitted. -/
structure Inside (request : Request) (s : System) : Prop where
  course : ∃ c t, request.Follows c t ∧ c.id = (s.tx request.tx).id
  kept : ∃ c g, request.Kept c g ∧ c.id = (s.tx request.tx).id
  size : request.tx < request.progress.system.transactions.size
  taken : (request.progress.system.tx request.tx).Taken
  spares : request.progress.system.Spares request.tx s

lemma Inside.spared (h : request.Inside s) (hs : s.Spares request.tx t) : request.Inside t where
  course := by
    obtain ⟨c, u, hf, hi⟩ := h.course
    have hid := (hs.undisturbed (h.size.trans_le h.spares.size_le)).grows.id
    exact ⟨c, u, hf, hi.trans hid.symm⟩
  kept := by
    obtain ⟨c, g, hk, hi⟩ := h.kept
    have hid := (hs.undisturbed (h.size.trans_le h.spares.size_le)).grows.id
    exact ⟨c, g, hk, hi.trans hid.symm⟩
  size := h.size
  taken := h.taken
  spares := h.spares.trans hs

/-- The transaction stays taken. -/
lemma Inside.taken_now (h : request.Inside s) : (s.tx request.tx).Taken :=
  ((h.spares.undisturbed h.size).keeps h.taken).taken h.taken

lemma Inside.continues (h : request.Inside s) :
    request.progress.Continues (System.Spares request.tx) (System.Works request.tx)
      fun _ t => request.tx < t.transactions.size ∧ Settled (t.tx request.tx) := by
  obtain ⟨c, g, hk, -⟩ := h.kept
  exact hk.continues

/-- The next step of what is inside. -/
lemma Inside.resume (h : request.Inside s) {s₀ : System} {q : Question}
    {next : System → q.Answer → Dialogue (Except TxError Unit)}
    (hp : request.progress = .ask s₀ q next) (a : q.Answer) :
    s.Works request.tx (next s a).system ∧
      (request.resume q a s (next s a)).Inside (next s a).system := by
  have hspares := h.spares
  rw [hp] at hspares
  obtain ⟨c', g, hk, hi'⟩ := h.kept
  obtain ⟨g', hacts, hk'⟩ := hk.resume hp (hk.tx ▸ hspares) a
  have hw : s.Works request.tx (next s a).system := hk.tx ▸ hacts.works
  obtain ⟨c, t, hf, hi⟩ := h.course
  obtain ⟨x, before, u, ps, hx, ht, hb, hsteps, hr⟩ := hf.runs
  rw [hp] at hr
  have hr' := hr.snoc (hf.tx ▸ hspares) a
  have hsteps' : request.steps ++ [(s, (next s a).system)] =
      before ++ (u, (x t).system) :: (ps ++ [(s, (next s a).system)]) := by
    rw [hsteps, List.append_assoc, List.cons_append]
  refine ⟨hw, ⟨⟨c, t, ⟨hf.tx, hf.manager, hf.size, x, before, u, _, hx, ht, hb, hsteps', hr'⟩, ?_⟩,
    ⟨c', g', hk', ?_⟩, ?_, hw.taken, .refl ..⟩⟩
  · exact hi.trans hw.same.id.symm
  · exact hi'.trans hw.same.id.symm
  · have hsize := h.size.trans_le h.spares.size_le
    rw [← hw.size_eq] at hsize
    exact hsize

/-- The step of a request outside. -/
lemma Outside.resume (h : request.Outside id) {s₀ : System} {q : Question}
    {next : System → q.Answer → Dialogue (Except TxError Unit)}
    (hp : request.progress = .ask s₀ q next) (a : q.Answer)
    (hr : request.tx < s.transactions.size) (hi : (s.tx request.tx).id = id)
    (hm : (s.tx request.tx).WellMarked) :
    Looks request.manager request.tx request.how s (next s a).system ∧
      (request.resume q a s (next s a)).Outside id ∨
    (s.tx request.tx).Open ∧ (next s a).system = s.take request.tx ∧
      (request.resume q a s (next s a)).Inside (s.take request.tx) ∧
      (request.resume q a s (next s a)).Accepted ∧
      ∃ c, (request.resume q a s (next s a)).Kept c {} := by
  have hq : q = .turn := h.station.waits hp
  have hsilent : request.exchanges ++ Exchange.note q a = [] := by
    subst hq
    rw [h.silent, Exchange.note_turn, List.append_nil]
  rcases h.station.resume hp a hr hi with ⟨hl, hs⟩ | ⟨ho, c, x, hc, hi', hm', hx, hn⟩
  · refine .inl ⟨hl, hs, hsilent, fun p hp => ?_⟩
    rcases List.mem_append.mp hp with hp | hp
    · exact h.harmless p hp
    · obtain rfl := List.mem_singleton.mp hp
      exact hl.harmless
  · -- the course begins here, with what was done so far before it
    right
    have hw : s.Works request.tx (s.take request.tx) := System.works_take hr
    have ht : request.tx < (s.take request.tx).transactions.size := hw.size_eq ▸ hr
    have htakes : Takes (s.tx request.tx) ((s.take request.tx).tx request.tx) :=
      ⟨ho, hm, System.tx_take hr⟩
    have hstill : (next s a).system = s.take request.tx := hn ▸ hx.goes.still _
    have hkept : (request.resume q a s (next s a)).Kept c {} := by
      refine ⟨hc, hm', hsilent.symm, ?_⟩
      change (next s a).Tracks _ _ _ _
      rw [hn]
      exact hx.goes.tracks {} _ (hc ▸ ht) ⟨rfl, rfl, hc ▸ htakes.early⟩
    have hid : c.id = ((s.take request.tx).tx request.tx).id :=
      hi'.trans (hi.symm.trans hw.same.id.symm)
    refine ⟨ho, hstill, ⟨⟨c, s.take request.tx, ⟨hc, hm', hc ▸ ht, x, request.steps, s, [], hc ▸ hx,
      hc ▸ htakes, h.harmless, ?_, ?_⟩, hid⟩, ⟨c, {}, hkept, hid⟩, ?_, ?_, ?_⟩, ?_, c, hkept⟩
    · rw [← hn]
      rfl
    · change (x (s.take request.tx)).Runs _ (request.exchanges ++ Exchange.note q a) [] (next s a)
      rw [hsilent, hn]
      exact .refl _
    · change request.tx < (next s a).system.transactions.size
      rw [hstill]
      exact ht
    · change ((next s a).system.tx request.tx).Taken
      rw [hstill]
      exact hw.taken
    · change (next s a).system.Spares request.tx _
      rw [hstill]
    · refine ⟨(s, (next s a).system), List.mem_append_right _ (List.mem_singleton_self _), ho, ?_⟩
      rw [hstill]
      exact hw.taken

lemma Accepted.resume (h : request.Accepted) (q : Question) (a : q.Answer) (s : System)
    (d : Dialogue (Except TxError Unit)) : (request.resume q a s d).Accepted := by
  obtain ⟨p, hp, ho, ht⟩ := h
  exact ⟨p, List.mem_append_left _ hp, ho, ht⟩

end Request

/-! ### The request that has taken a transaction -/

namespace Machine

variable {owner : TxRef → Option Nat} {s t : System} {cs cs' : List (Option Context)}
  {xs : List Request} {x y : Request} {i : Nat}

/-- Every transaction is open, or it was taken by its owner, one of the requests; all other requests
are outside. -/
structure Sound (owner : TxRef → Option Nat) (M : Machine) : Prop where
  distinct : ∀ r, r < M.system.transactions.size → (M.system.tx r).Distinct
  marks : ∀ r, r < M.system.transactions.size → (M.system.tx r).WellMarked
  refers : ∀ (i : Nat) (x : Request), M.requests[i]? = some x → x.tx < M.system.transactions.size
  free : ∀ r, r < M.system.transactions.size → owner r = none → (M.system.tx r).Open
  held : ∀ r i, owner r = some i → ∃ x : Request, M.requests[i]? = some x ∧ x.tx = r
  inside : ∀ (i : Nat) (x : Request), M.requests[i]? = some x → owner x.tx = some i →
    x.Inside M.system ∧ x.Accepted
  outside : ∀ (i : Nat) (x : Request), M.requests[i]? = some x → owner x.tx ≠ some i →
    x.Outside (M.system.tx x.tx).id

lemma sound_initial (clock seed : Nat) : Sound (fun _ => none) (initial clock seed) where
  distinct r hr := by cases hr
  marks r hr := by cases hr
  refers i x hx := by simp [initial] at hx
  free r hr := by cases hr
  held r i h := by cases h
  inside i x hx := by simp [initial] at hx
  outside i x hx := by simp [initial] at hx

lemma Sound.bystands (h : Sound owner ⟨s, cs, xs⟩) (hs : s.Bystands t) :
    Sound owner ⟨t, cs', xs⟩ where
  distinct r hr := by
    by_cases hr' : r < s.transactions.size
    · exact (hs.grows.grows r hr').distinct (h.distinct r hr')
    · exact (hs.fresh r (Nat.not_lt.mp hr') hr).2.1
  marks r hr := by
    by_cases hr' : r < s.transactions.size
    · exact (hs.grows.grows r hr').onward.marks (h.marks r hr')
    · exact (hs.fresh r (Nat.not_lt.mp hr') hr).2.2
  refers i x hx := (h.refers i x hx).trans_le hs.grows.size_le
  free r hr ho := by
    by_cases hr' : r < s.transactions.size
    · exact ((hs.spares r).undisturbed hr').opens (h.free r hr' ho)
    · exact (hs.fresh r (Nat.not_lt.mp hr') hr).1
  held := h.held
  inside i x hx ho := by
    obtain ⟨hin, ha⟩ := h.inside i x hx ho
    exact ⟨hin.spared (hs.spares x.tx), ha⟩
  outside i x hx ho := by
    have hid : (t.tx x.tx).id = (s.tx x.tx).id := (hs.grows.grows x.tx (h.refers i x hx)).id
    have hout := h.outside i x hx ho
    rw [← hid] at hout
    exact hout

lemma getElem?_concat_cases {α : Type} {l : List α} {a b : α} {i : Nat}
    (h : (l ++ [a])[i]? = some b) : l[i]? = some b ∨ i = l.length ∧ b = a := by
  rcases lt_trichotomy i l.length with hi | hi | hi
  · rw [List.getElem?_append_left hi] at h
    exact .inl h
  · rw [hi, List.getElem?_concat_length] at h
    exact .inr ⟨hi, (Option.some.inj h).symm⟩
  · rw [List.getElem?_eq_none (by simp; omega)] at h
    cases h

lemma getElem?_set_cases {α : Type} {l : List α} {a b : α} {i j : Nat}
    (h : (l.set i a)[j]? = some b) : j ≠ i ∧ l[j]? = some b ∨ j = i ∧ b = a := by
  by_cases hj : j = i
  · subst hj
    have hlt : j < l.length := by
      have hlt' := (List.getElem?_eq_some_iff.mp h).1
      rw [List.length_set] at hlt'
      exact hlt'
    rw [List.getElem?_set_self hlt] at h
    exact .inr ⟨rfl, (Option.some.inj h).symm⟩
  · rw [List.getElem?_set_ne (Ne.symm hj)] at h
    exact .inl ⟨hj, h⟩

/-- A new request is outside. -/
lemma Sound.concat (h : Sound owner ⟨s, cs, xs⟩) (hx : x.tx < s.transactions.size)
    (ho : x.Outside (s.tx x.tx).id) : Sound owner ⟨s, cs', xs ++ [x]⟩ where
  distinct := h.distinct
  marks := h.marks
  refers i y hy := by
    rcases getElem?_concat_cases hy with hy | ⟨-, rfl⟩
    · exact h.refers i y hy
    · exact hx
  free := h.free
  held r i hr := by
    obtain ⟨y, hy, hyr⟩ := h.held r i hr
    have hlt : i < xs.length := (List.getElem?_eq_some_iff.mp hy).1
    exact ⟨y, (List.getElem?_append_left hlt).trans hy, hyr⟩
  inside i y hy hi := by
    rcases getElem?_concat_cases hy with hy | ⟨rfl, rfl⟩
    · exact h.inside i y hy hi
    · obtain ⟨z, hz, -⟩ := h.held _ _ hi
      simp at hz
  outside i y hy hi := by
    rcases getElem?_concat_cases hy with hy | ⟨rfl, rfl⟩
    · exact h.outside i y hy hi
    · exact ho

/-- Whoever holds another transaction is another request. -/
lemma Sound.held_ne (h : Sound owner ⟨s, cs, xs⟩) (hi : xs[i]? = some x) {r : TxRef} {j : Nat}
    (hr : owner r = some j) (hne : r ≠ x.tx ∨ owner x.tx ≠ some i) :
    j ≠ i ∧ ∃ z : Request, xs[j]? = some z ∧ z.tx = r := by
  obtain ⟨z, hz, hzr⟩ := h.held r j hr
  refine ⟨?_, z, hz, hzr⟩
  rintro rfl
  obtain rfl := Option.some.inj (hz.symm.trans hi)
  rcases hne with hne | hne
  · exact hne hzr.symm
  · exact hne (hzr ▸ hr)

/-- A request stays outside. -/
lemma Sound.replace (h : Sound owner ⟨s, cs, xs⟩) (hi : xs[i]? = some x)
    (hown : owner x.tx ≠ some i) (hy : y.tx = x.tx) (ho : y.Outside (s.tx x.tx).id) :
    Sound owner ⟨s, cs, xs.set i y⟩ where
  distinct := h.distinct
  marks := h.marks
  refers j z hz := by
    rcases getElem?_set_cases hz with ⟨-, hz⟩ | ⟨-, rfl⟩
    · exact h.refers j z hz
    · rw [hy]
      exact h.refers i x hi
  free := h.free
  held r j hr := by
    obtain ⟨hj, z, hz, hzr⟩ := h.held_ne hi hr (.inr hown)
    exact ⟨z, (List.getElem?_set_ne hj.symm).trans hz, hzr⟩
  inside j z hz hj := by
    rcases getElem?_set_cases hz with ⟨-, hz⟩ | ⟨rfl, rfl⟩
    · exact h.inside j z hz hj
    · rw [hy] at hj
      exact absurd hj hown
  outside j z hz hj := by
    rcases getElem?_set_cases hz with ⟨-, hz⟩ | ⟨rfl, rfl⟩
    · exact h.outside j z hz hj
    · rw [hy]
      exact ho

/-- Nobody has taken an open transaction. -/
lemma Sound.owner_of_open (h : Sound owner ⟨s, cs, xs⟩) (ho : (s.tx r).Open) : owner r = none := by
  cases hj : owner r with
  | none => rfl
  | some j =>
    obtain ⟨y, hy, rfl⟩ := h.held r j hj
    exact absurd (h.inside j y hy hj).1.taken_now ho.not_taken

/-- A request takes its transaction, or goes on inside. -/
lemma Sound.works (h : Sound owner ⟨s, cs, xs⟩) (hi : xs[i]? = some x)
    (hown : owner x.tx = none ∨ owner x.tx = some i) (hw : s.Works x.tx t) (hy : y.tx = x.tx)
    (hin : y.Inside t) (ha : y.Accepted) :
    Sound (Function.update owner x.tx (some i)) ⟨t, cs, xs.set i y⟩ where
  distinct r hr := by
    rw [hw.size_eq] at hr
    exact (hw.grows.grows r hr).distinct (h.distinct r hr)
  marks r hr := by
    rw [hw.size_eq] at hr
    exact (hw.grows.grows r hr).onward.marks (h.marks r hr)
  refers j z hz := by
    rw [hw.size_eq]
    rcases getElem?_set_cases hz with ⟨-, hz⟩ | ⟨-, rfl⟩
    · exact h.refers j z hz
    · rw [hy]
      exact h.refers i x hi
  free r hr hn := by
    have hr' : r ≠ x.tx := by
      rintro rfl
      rw [Function.update_self] at hn
      cases hn
    rw [Function.update_of_ne hr'] at hn
    rw [hw.others r hr']
    rw [hw.size_eq] at hr
    exact h.free r hr hn
  held r j hr := by
    by_cases hr' : r = x.tx
    · subst hr'
      rw [Function.update_self] at hr
      obtain rfl := Option.some.inj hr
      exact ⟨y, List.getElem?_set_self (List.getElem?_eq_some_iff.mp hi).1, hy⟩
    · rw [Function.update_of_ne hr'] at hr
      obtain ⟨hj, z, hz, hzr⟩ := h.held_ne hi hr (.inl hr')
      exact ⟨z, (List.getElem?_set_ne hj.symm).trans hz, hzr⟩
  inside j z hz hj := by
    rcases getElem?_set_cases hz with ⟨hji, hz⟩ | ⟨rfl, rfl⟩
    · have hzx : z.tx ≠ x.tx := by
        intro hzx
        rw [hzx, Function.update_self] at hj
        exact hji (Option.some.inj hj).symm
      rw [Function.update_of_ne hzx] at hj
      obtain ⟨hzin, hza⟩ := h.inside j z hz hj
      exact ⟨hzin.spared (hw.spares hzx), hza⟩
    · exact ⟨hin, ha⟩
  outside j z hz hj := by
    rcases getElem?_set_cases hz with ⟨hji, hz⟩ | ⟨rfl, rfl⟩
    · have hzj : owner z.tx ≠ some j := by
        intro hzj
        -- no other request has the transaction, as it was free or the one that goes on has it
        by_cases hzx : z.tx = x.tx
        · rw [hzx] at hzj
          rcases hown with hn | hn
          · rw [hn] at hzj
            cases hzj
          · rw [hn] at hzj
            exact hji (Option.some.inj hzj).symm
        · rw [Function.update_of_ne hzx] at hj
          exact hj hzj
      have hid := (hw.grows.grows z.tx (h.refers j z hz)).id
      change z.Outside (t.tx z.tx).id
      rw [hid]
      exact h.outside j z hz hzj
    · rw [hy, Function.update_self] at hj
      exact absurd rfl hj

/-- How a context that holds a transaction enters its completion. -/
lemma enter_cases {c : Context} {r : TxRef} (hr : c.current = some r) (how : Ending) (s : System) :
    (∃ why, (c.enter how s).2 = .done s (.error (.illegalState why))) ∨
    (c.enter how s).2 = how.proc c.manager r (s.modifyTx r (·.release c.task)) := by
  unfold Context.enter Context.takeOwned
  rw [hr]
  by_cases ho : (s.tx r).owner = some c.task
  · right
    simp [ho]
  · left
    simp [ho]

/-- A request that was just made has come to no more than its first turn. -/
lemma station_proc (how : Ending) (m : ManagerRef) {r : TxRef} {id : TxId} {s : System}
    (hi : (s.tx r).id = id) :
    (how.proc m r s).system = s ∧ Request.Station r id m how (how.proc m r s) := by
  cases how with
  | commit => exact ⟨rfl, .asked s⟩
  | rollback => exact ⟨rfl, .atRollback (c := Completion.of m r s) s rfl hi rfl⟩

lemma outside_start {how : Ending} {m : ManagerRef} {r : TxRef} {id : TxId} {s : System}
    {d : Dialogue (Except TxError Unit)} (hs : Request.Harmless m r how s d.system)
    (hd : Request.Station r id m how d) : (Request.start how m r s d).Outside id where
  station := hd
  silent := rfl
  harmless p hp := by
    obtain rfl := List.mem_singleton.mp hp
    exact hs

/-- Every step keeps the machine sound, and leads no transaction back. -/
lemma Sound.step {M M' : Machine} (h : Sound owner M) (hs : Step M M') :
    (∃ owner', Sound owner' M') ∧ M.system.Grows M'.system := by
  obtain ⟨s, cs, xs⟩ := M
  have hbystands : ∀ {t : System} {cs'}, s.Bystands t →
      (∃ owner', Sound owner' ⟨t, cs', xs⟩) ∧ s.Grows t :=
    fun hb => ⟨⟨owner, h.bystands hb⟩, hb.grows⟩
  cases hs with
  | operate o => exact hbystands (o.touches_apply s).bystands
  | openContext m => exact hbystands (System.bystands_of_transactions_eq rfl)
  | useContext hc o _ => exact hbystands (o.touches_apply _ s).bystands
  | dropContext hc => exact hbystands (Context.touches_suspend _ s).bystands
  | request how m hr =>
    obtain ⟨hsys, hd⟩ := station_proc how m (s := s) rfl
    dsimp only
    rw [hsys]
    refine ⟨⟨owner, h.concat hr (outside_start ?_ hd)⟩, .refl s⟩
    rw [hsys]
    exact .nothing
  | @requestWithin how k c r hc hr hlt =>
    dsimp only
    rcases enter_cases hr how s with ⟨why, he⟩ | he
    · rw [he]
      have ho : (Request.start how c.manager r s (.done s (.error (.illegalState why)))).Outside
          (s.tx r).id :=
        outside_start .nothing (.refused s why)
      exact ⟨⟨owner, h.concat hlt ho⟩, .refl s⟩
    · rw [he]
      have hb := System.bystands_release (s := s) r c.task
      have hid := ((hb.spares r).undisturbed hlt).grows.id
      obtain ⟨hsys, hd⟩ := station_proc how c.manager (r := r) hid
      have ho := outside_start (s := s) (hsys.symm ▸ .released c.task) hd
      rw [hsys]
      have hlater : Sound owner ⟨s.modifyTx r (·.release c.task), cs, xs⟩ := h.bystands hb
      refine ⟨⟨owner, hlater.concat ?_ ?_⟩, hb.grows⟩
      · rw [System.size_modifyTx]
        exact hlt
      · change Request.Outside _ ((s.modifyTx r (·.release c.task)).tx r).id
        rw [hid]
        exact ho
  | @answer i x s₀ q next hi hp a =>
    have hlt : x.tx < s.transactions.size := h.refers i x hi
    -- inside it goes on; outside it stays where it is, or takes what nobody has taken
    by_cases hown : owner x.tx = some i
    · obtain ⟨hin, ha⟩ := h.inside i x hi hown
      obtain ⟨hw, hin'⟩ := hin.resume hp a
      exact ⟨⟨_, h.works hi (.inr hown) hw rfl hin' (ha.resume ..)⟩, hw.grows⟩
    · have hout := h.outside i x hi hown
      rcases hout.resume hp a hlt rfl (h.marks x.tx hlt) with
        ⟨hl, ho⟩ | ⟨hopen, htake, hin, ha, -⟩
      · have hb := hl.harmless.bystands
        have hsound := h.replace (y := x.resume q a s (next s a)) hi hown rfl ho
        exact ⟨⟨owner, hsound.bystands hb⟩, hb.grows⟩
      · have hnone := h.owner_of_open hopen
        have hw : s.Works x.tx (s.take x.tx) := System.works_take hlt
        dsimp only
        rw [htake]
        exact ⟨⟨_, h.works hi (.inl hnone) hw rfl hin ha⟩, hw.grows⟩

lemma Reachable.sound {M : Machine} (h : M.Reachable) : ∃ owner, Sound owner M :=
  h.induct (P := fun M => ∃ owner, Sound owner M) (fun clock seed => ⟨_, sound_initial clock seed⟩)
    fun _ _ ⟨_, hs⟩ hstep => (hs.step hstep).1

/-- No step leads a transaction back. -/
lemma Reachable.grows {M M' : Machine} (h : M.Reachable) (hs : M.Steps M') :
    M.system.Grows M'.system := by
  induction hs with
  | refl => exact .refl _
  | tail hs' hstep ih =>
    obtain ⟨owner, hsound⟩ := (h.steps hs').sound
    exact ih.trans (hsound.step hstep).2

/-- A request that has come to its end stays as it is. -/
lemma Steps.ended {M M' : Machine} (h : M.Steps M') {i : Nat} {x : Request} {s : System}
    {result : Except TxError Unit} (hi : M.requests[i]? = some x)
    (hx : x.progress = .done s result) : M'.requests[i]? = some x := by
  induction h with
  | refl => exact hi
  | tail _ hstep ih =>
    have happend : ∀ {xs : List Request} {y}, xs[i]? = some x → (xs ++ [y])[i]? = some x :=
      fun hxs => (List.getElem?_append_left (List.getElem?_eq_some_iff.mp hxs).1).trans hxs
    cases hstep with
    | request => exact happend ih
    | requestWithin => exact happend ih
    | @answer j y _ _ _ hj hp a =>
      have hji : j ≠ i := by
        rintro rfl
        obtain rfl := Option.some.inj (hj.symm.trans ih)
        rw [hx] at hp
        cases hp
      exact (List.getElem?_set_ne hji).trans ih
    | _ => exact ih

lemma Sound.owner_of_accepted {M : Machine} (h : Sound owner M) (hi : M.requests[i]? = some x)
    (ha : x.Accepted) : owner x.tx = some i := by
  by_contra hne
  exact (h.outside i x hi hne).not_accepted ha

/-- What comes of an answer: the request stays outside, is admitted, or goes on inside. -/
lemma Sound.answer {M : Machine} (h : Sound owner M) (hi : M.requests[i]? = some x) {s₀ : System}
    {q : Question} {next : System → q.Answer → Dialogue (Except TxError Unit)}
    (hp : x.progress = .ask s₀ q next) (a : q.Answer) :
    Request.Looks x.manager x.tx x.how M.system (next M.system a).system ∧
      ¬(x.resume q a M.system (next M.system a)).Accepted ∨
    (M.system.tx x.tx).Open ∧ (next M.system a).system = M.system.take x.tx ∧ ¬x.Accepted ∧
      (x.resume q a M.system (next M.system a)).Accepted ∧
      (∃ c, (x.resume q a M.system (next M.system a)).Kept c {}) ∨
    x.Accepted ∧ (∃ c g, x.Kept c g ∧ c.id = (M.system.tx x.tx).id) ∧
      ∀ c g, x.Kept c g → ∃ g', c.Acts (g.hear q a) M.system (next M.system a).system g' ∧
        (x.resume q a M.system (next M.system a)).Kept c g' := by
  by_cases hown : owner x.tx = some i
  · obtain ⟨hin, ha⟩ := h.inside i x hi hown
    have hspares := hin.spares
    rw [hp] at hspares
    exact .inr (.inr ⟨ha, hin.kept, fun c g hk => hk.resume hp (hk.tx ▸ hspares) a⟩)
  · have hlt : x.tx < M.system.transactions.size := h.refers i x hi
    have hout := h.outside i x hi hown
    rcases hout.resume hp a hlt rfl (h.marks x.tx hlt) with ⟨hl, ho⟩ | ⟨hopen, htake, -, ha, hk⟩
    · exact .inl ⟨hl, ho.not_accepted⟩
    · exact .inr (.inl ⟨hopen, htake, hout.not_accepted, ha, hk⟩)

/-- What a step does: an operation, the use of a context, no harm by a request, the admission of a
completion or an act of one that was admitted. -/
inductive Alters (M : Machine) : Machine → Prop
  | operated (o : Operation) : Alters M (M.operate o)
  | opened {N : Machine} (m : ManagerRef) (hs : N.system = (Context.new m M.system).2) : Alters M N
  | used {N : Machine} {c c' : Context} (h : c.Touches M.system c' N.system) : Alters M N
  | harmless {N : Machine} {m : ManagerRef} {r : TxRef} {how : Ending}
      (h : Request.Harmless m r how M.system N.system) : Alters M N
  | admitted {N : Machine} {r : TxRef} (hr : r < M.system.transactions.size)
      (ho : (M.system.tx r).Open) (hs : N.system = M.system.take r) : Alters M N
  | acted {N : Machine} {x : Request} {c : Completion} {g g' : Diary} (hx : x ∈ N.requests)
      (ha : x.Accepted) (hc : c.tx = x.tx) (hid : c.id = (M.system.tx x.tx).id)
      (hsaid : g.said = x.exchanges) (h : c.Acts g M.system N.system g') : Alters M N

lemma Reachable.alters {M N : Machine} (hM : M.Reachable) (hs : Step M N) : M.Alters N := by
  cases hs with
  | operate o => exact .operated o
  | openContext m => exact .opened m rfl
  | useContext hc o _ => exact .used (o.touches_apply _ M.system)
  | dropContext hc => exact .used (Context.touches_suspend _ M.system)
  | @request how m r hr =>
    have h : Request.Harmless m r how M.system (how.proc m r M.system).system := by
      rw [(station_proc how m rfl).1]
      exact .nothing
    exact .harmless h
  | @requestWithin how k c r hc hr hlt =>
    have h : Request.Harmless c.manager r how M.system (c.enter how M.system).2.system := by
      rcases enter_cases hr how M.system with ⟨why, he⟩ | he
      · rw [he]
        exact .nothing
      · rw [he, (station_proc how c.manager rfl).1]
        exact .released c.task
    exact .harmless h
  | @answer i x s q next hi hp a =>
    obtain ⟨owner, hsound⟩ := hM.sound
    rcases hsound.answer hi hp a with ⟨hl, -⟩ | ⟨ho, htake, -⟩ | ⟨ha, ⟨c, g, hk, hid⟩, hacts⟩
    · exact .harmless hl.harmless
    · exact .admitted (hsound.refers i x hi) ho htake
    · obtain ⟨g', hg, hk'⟩ := hacts c g hk
      exact .acted (List.mem_set (List.getElem?_eq_some_iff.mp hi).1 _) (ha.resume ..) hk.tx hid
        (hg.said.symm.trans hk'.said) hg

end Machine

/-- What a request inside has come to is final. -/
lemma Request.Inside.ended {x : Request} {s t : System} {result : Except TxError Unit}
    (h : x.Inside s) (hp : x.progress = .done t result) :
    (t.tx x.tx).Ended ∧ (s.tx x.tx).status = (t.tx x.tx).status := by
  have hcont := h.continues
  have hspares := h.spares
  have htaken := h.taken
  rw [hp] at hcont hspares htaken
  obtain ⟨hsize, hsettled⟩ := hcont
  have hk := (hspares.undisturbed hsize).keeps htaken
  exact ⟨hsettled.ended, hk.ended hsettled.ended⟩

/-! ### Exactly one completion -/

namespace Machine

variable {M : Machine} {r : TxRef}

/-- Exactly one completion takes effect. At most one request is accepted, and one is accepted unless
the transaction is open. All others change nothing, ask nothing and are refused. What the accepted
one has come to is final. -/
theorem one_completion (hM : M.Reachable) (hr : r < M.system.transactions.size) :
    (∀ (i j : Nat) (x y : Request), M.requests[i]? = some x → M.requests[j]? = some y →
      x.tx = r → y.tx = r → x.Accepted → y.Accepted → i = j) ∧
    ((M.system.tx r).Open ∨ ∃ x ∈ M.requests, x.tx = r ∧ x.Accepted) ∧
    (∀ x ∈ M.requests, x.tx = r → ¬x.Accepted → x.Idle) ∧
    ∀ x ∈ M.requests, x.tx = r → x.Accepted → ∀ s result, x.progress = .done s result →
      (M.system.tx r).Ended ∧
        ∀ M', M.Steps M' → (M'.system.tx r).status = (M.system.tx r).status := by
  obtain ⟨owner, hsound⟩ := hM.sound
  refine ⟨?_, ?_, ?_, ?_⟩
  · rintro i j x y hi hj rfl hy hx hya
    have hjo := hsound.owner_of_accepted hj hya
    rw [hy] at hjo
    exact Option.some.inj ((hsound.owner_of_accepted hi hx).symm.trans hjo)
  · cases ho : owner r with
    | none => exact .inl (hsound.free r hr ho)
    | some i =>
      obtain ⟨x, hi, rfl⟩ := hsound.held r i ho
      exact .inr ⟨x, List.mem_of_getElem? hi, rfl, (hsound.inside i x hi ho).2⟩
  · rintro x hx rfl hna
    obtain ⟨i, hi⟩ := List.getElem?_of_mem hx
    have hne : owner x.tx ≠ some i := fun ho => hna (hsound.inside i x hi ho).2
    exact (hsound.outside i x hi hne).idle
  · rintro x hx rfl ha s result hp
    obtain ⟨i, hi⟩ := List.getElem?_of_mem hx
    -- wherever the program comes to, the transaction is as the completion has left it
    have hlater : ∀ M', M.Steps M' → (M'.system.tx x.tx).status = (s.tx x.tx).status ∧
        (s.tx x.tx).Ended := by
      intro M' hM'
      obtain ⟨owner', hsound'⟩ := (hM.steps hM').sound
      have hi' : M'.requests[i]? = some x := hM'.ended hi hp
      obtain ⟨hin, -⟩ := hsound'.inside i x hi' (hsound'.owner_of_accepted hi' ha)
      obtain ⟨hended, hstatus⟩ := hin.ended hp
      exact ⟨hstatus, hended⟩
    obtain ⟨hnow, hended⟩ := hlater M .refl
    refine ⟨?_, fun M' hM' => (hlater M' hM').1.trans hnow.symm⟩
    rw [Transaction.Ended, hnow]
    exact hended

/-- A commit and a rollback of one transaction: both are requested, the commit is admitted, the
rollback is refused, and the commit comes to its end. -/
def race : Machine :=
  let begun := ((initial 0 0).operate (.addManager {} 0)).operate (.begin 0 none)
  let requested := (begun.request .commit 0 0).request .rollback 0 0
  let admitted := (answer Dialogue.someAnswer 0)^[2] requested
  let refused := (answer Dialogue.someAnswer 1)^[1] admitted
  (answer Dialogue.someAnswer 0)^[4] refused

theorem one_completion_race :
    race.Reachable ∧ 0 < race.system.transactions.size ∧
    race.requests.map (fun x => decide x.Accepted) = [true, false] ∧
    (∀ x ∈ race.requests, x.tx = 0 → ¬x.Accepted → x.Idle) ∧
    ∀ M', race.Steps M' → (M'.system.tx 0).status = .committed := by
  have hM : race.Reachable :=
    (((((((reachable_initial 0 0).operate _).operate _).request ..).request
    ..).answers ..).answers ..).answers ..
  have hr : 0 < race.system.transactions.size := by decide
  obtain ⟨-, -, hidle, hfinal⟩ := one_completion hM hr
  refine ⟨hM, hr, by decide, hidle, fun M' hM' => ?_⟩
  obtain ⟨-, hstays⟩ := hfinal race.requests[0] (by simp) (by decide) (by decide) _ _ rfl
  exact hstays M' hM'

end Machine

end TwoPhaseCommit
