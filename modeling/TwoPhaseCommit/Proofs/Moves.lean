import TwoPhaseCommit.Proofs.Course
import TwoPhaseCommit.Proofs.System

/-!
# The moves of a completion

Whenever it has an answer a completion does one of three things, if it does anything: it moves its
transaction on, strikes it from the list of its manager, or counts a divergence (`Completion.Acts`).
A `Diary` is kept of what it has heard and done so far.

`Completion.Goes P x Q` says of a part `x` of a completion: found with `P`, the diary and the
transaction are left with `Q`, whatever is answered and whatever bystanders do meanwhile; and every
step on the way is such an act. There is one rule for each way to build a procedure.
-/

namespace TwoPhaseCommit

/-- What a completion has heard, and what it has done at its manager. -/
structure Diary where
  said : List Exchange := []
  /-- Whether the transaction was struck from the list of the manager. -/
  struck : Bool := false
  /-- How many divergences were counted. -/
  divergences : Nat := 0

/-- An answer comes in. -/
def Diary.hear (g : Diary) (q : Question) (a : q.Answer) : Diary :=
  { g with said := g.said ++ Exchange.note q a }

@[simp] lemma Diary.hear_turn (g : Diary) (a : Question.turn.Answer) : g.hear .turn a = g := by
  simp [hear]

namespace Completion

variable {α β : Type} {c : Completion} {g g' : Diary} {s t : System}

/-! ### Acts -/

/-- A participant has voted to commit, or has no part in the outcome. -/
def Voted (c : Completion) (g : Diary) (p : Participant) : Prop :=
  c.ballot p (.ok .commit) ∈ g.said ∨ c.ballot p (.ok .readOnly) ∈ g.said

/-- A completion moves its transaction on. -/
structure Moves (c : Completion) (g : Diary) (t t' : Transaction) : Prop extends
    Transaction.Same t t' where
  taken : t'.Taken
  owner : t'.owner = t.owner
  timedOut : t'.timedOut = t.timedOut
  status : t'.status = t.status ∨ t'.status ∈ t.status.next
  /-- Prepared is who has heard all votes. -/
  voted : t.status ≠ .prepared → t'.status = .prepared →
    ∀ p ∈ t.participants, p.twoPhase = true → c.Voted g p

/-- What a completion does in one step, and what the diary tells of it. -/
inductive Acts (c : Completion) : Diary → System → System → Diary → Prop
  | moves {g : Diary} {s : System} {f : Transaction → Transaction}
      (hs : c.tx < s.transactions.size) (h : c.Moves g (s.tx c.tx) (f (s.tx c.tx))) :
    Acts c g s (s.modifyTx c.tx f) g
  | strikes {g : Diary} {s : System} (h : (s.tx c.tx).Ended) :
    Acts c g s (c.unregister (s.tx c.tx).status s) { g with struck := true }
  | counts {g : Diary} {s : System} (h : (s.tx c.tx).Taken) :
    Acts c g s (s.modifyStats c.manager fun x => { x with heuristic := x.heuristic + 1 })
      { g with divergences := g.divergences + 1 }

lemma Moves.of_status_eq {t t' : Transaction} (h : t.Same t') (ht : t'.Taken)
    (ho : t'.owner = t.owner) (hd : t'.timedOut = t.timedOut) (hs : t'.status = t.status) :
    c.Moves g t t' :=
  { h with
    taken := ht, owner := ho, timedOut := hd, status := .inl hs
    voted := fun hne hp => absurd (hs.symm.trans hp) hne }

/-- Where the vote is not closed it does not matter who has voted. -/
lemma Moves.of_next {t t' : Transaction} (h : t.Same t') (ht : t'.Taken)
    (ho : t'.owner = t.owner) (hd : t'.timedOut = t.timedOut) (hs : t'.status ∈ t.status.next)
    (hp : t'.status ≠ .prepared) : c.Moves g t t' :=
  { h with
    taken := ht, owner := ho, timedOut := hd, status := .inr hs
    voted := fun _ h => absurd h hp }

lemma acts_rest (hs : c.tx < s.transactions.size) (ht : (s.tx c.tx).Taken) : c.Acts g s s g := by
  have h : c.Acts g s (s.modifyTx c.tx fun t => t) g :=
    .moves hs (.of_status_eq ⟨rfl, rfl, .refl _⟩ ht rfl rfl rfl)
  rwa [System.modifyTx_eq_self rfl] at h

lemma Acts.works (h : c.Acts g s t g') : s.Works c.tx t := by
  have hsame : ∀ t : Transaction, t.Same t := fun t => ⟨rfl, rfl, .refl t⟩
  cases h with
  | moves hs h => exact System.works_modifyTx hs h.toSame h.taken
  | strikes h => exact ⟨rfl, fun _ _ => rfl, hsame _, .inr h⟩
  | counts h => exact ⟨rfl, fun _ _ => rfl, hsame _, h⟩

lemma Acts.said (h : c.Acts g s t g') : g'.said = g.said := by
  cases h <;> rfl

/-! ### Assertions -/

/-- What a completion does with an answer. -/
def Responds (c : Completion) (g : Diary) (q : Question) (a : q.Answer) :
    System → System → Diary → Prop :=
  c.Acts (g.hear q a)

/-- With `P` a part of a completion finds its diary and its transaction, with `Q` it leaves them. -/
structure Goes (c : Completion) (P : Diary → Transaction → Prop) (x : Proc α)
    (Q : α → Diary → Transaction → Prop) : Prop where
  /-- It asks before it changes anything. -/
  still : ∀ s, (x s).system = s
  tracks : ∀ g s, c.tx < s.transactions.size → P g (s.tx c.tx) →
    (x s).Tracks (System.Spares c.tx) c.Responds
      (fun a g t => c.tx < t.transactions.size ∧ Q a g (t.tx c.tx)) g

/-- From a transaction with `P`, a part of its completion proceeds to one with `Q`. -/
structure Proceeds (c : Completion) (P : Transaction → Prop) (x : Proc α)
    (Q : α → Transaction → Prop) : Prop where
  continues : ∀ s, c.tx < s.transactions.size → P (s.tx c.tx) →
    (x s).Continues (System.Spares c.tx) (System.Works c.tx)
      (fun a t => c.tx < t.transactions.size ∧ Q a (t.tx c.tx))

/-- A property of taken transactions that bystanders keep. -/
structure Stable (P : Transaction → Prop) : Prop where
  taken : ∀ {t}, P t → t.Taken
  keeps : ∀ {t t'}, P t → t.Undisturbed t' → P t'
  /-- It does not depend on what is known of single participants. -/
  blind : ∀ {t} i s, P t → P (t.setResourceStatus i s)

/-- The same of a property of the diary, too, that no answer makes false. -/
structure Lasting (P : Diary → Transaction → Prop) : Prop where
  stable : ∀ g, Stable (P g)
  hears : ∀ {g t} q a, P g t → P (g.hear q a) t

/-- What was done at the manager, and the transaction. -/
structure Noted (struck : Bool) (n : Nat) (P : Transaction → Prop) (g : Diary) (t : Transaction) :
    Prop where
  struck : g.struck = struck
  divergences : g.divergences = n
  holds : P t

variable {P : Diary → Transaction → Prop} {b : Bool} {n : Nat}

lemma Stable.noted {P : Transaction → Prop} (hP : Stable P) : Lasting (Noted b n P) where
  stable _ := ⟨fun h => hP.taken h.holds, fun h hu => ⟨h.1, h.2, hP.keeps h.holds hu⟩,
    fun i s h => ⟨h.1, h.2, hP.blind i s h.holds⟩⟩
  hears _ _ h := ⟨h.1, h.2, h.3⟩

lemma Noted.weaken {P P' : Transaction → Prop} {t : Transaction} (h : Noted b n P g t)
    (hP : P t → P' t) : Noted b n P' g t :=
  ⟨h.1, h.2, hP h.3⟩

/-! ### Rules -/

lemma goes_pure {a : α} {Q : α → Diary → Transaction → Prop} (h : ∀ g t, P g t → Q a g t) :
    c.Goes P (pure a) Q :=
  ⟨fun _ => rfl, fun _ _ hs hp => ⟨hs, h _ _ hp⟩⟩

lemma Goes.bind {x : Proc α} {f : α → Proc β} {Q : α → Diary → Transaction → Prop}
    {Q' : β → Diary → Transaction → Prop} (hx : c.Goes P x Q) (hf : ∀ a, c.Goes (Q a) (f a) Q') :
    c.Goes P (x >>= f) Q' where
  still s := (Dialogue.system_bind (fun s a => (hf a).still s) (x s)).trans (hx.still s)
  tracks g s hs hp := (hx.tracks g s hs hp).bind (fun s a => (hf a).still s)
    fun a g t ht => (hf a).tracks g t ht.1 ht.2

lemma Goes.map {x : Proc α} {f : α → β} {Q : β → Diary → Transaction → Prop}
    (hx : c.Goes P x fun a => Q (f a)) : c.Goes P (f <$> x) Q :=
  hx.bind fun _ => goes_pure fun _ _ h => h

lemma Goes.discard {x : Proc α} {P' : Diary → Transaction → Prop} (hx : c.Goes P x fun _ => P') :
    c.Goes P (discard x) fun _ => P' :=
  hx.map (f := fun _ => ())

lemma Goes.weaken {x : Proc α} {Q Q' : α → Diary → Transaction → Prop} (hx : c.Goes P x Q)
    (hQ : ∀ a g t, Q a g t → Q' a g t) : c.Goes P x Q' :=
  ⟨hx.still, fun g s hs hp => (hx.tracks g s hs hp).mono fun a g _ h => ⟨h.1, hQ a g _ h.2⟩⟩

lemma Goes.strengthen {x : Proc α} {P' : Diary → Transaction → Prop}
    {Q : α → Diary → Transaction → Prop} (hx : c.Goes P x Q) (hP : ∀ g t, P' g t → P g t) :
    c.Goes P' x Q :=
  ⟨hx.still, fun g s hs hp => hx.tracks g s hs (hP g _ hp)⟩

lemma goes_view (f : System → α) : c.Goes P (Proc.view f) fun _ => P :=
  ⟨fun _ => rfl, fun _ _ hs hp => ⟨hs, hp⟩⟩

/-- While a question is open only bystanders are at work. -/
lemma goes_ask (hP : Lasting P) (q : Question) {Q : q.Answer → Diary → Transaction → Prop}
    (h : ∀ a g t, P g t → Q a (g.hear q a) t) : c.Goes P (Proc.ask q) Q where
  still _ := rfl
  tracks g s hs hp := by
    intro s' a hs'
    have hp' : P g (s'.tx c.tx) := (hP.stable g).keeps hp (hs'.undisturbed hs)
    have hsize : c.tx < s'.transactions.size := hs.trans_le hs'.size_le
    exact ⟨g.hear q a, acts_rest hsize ((hP.stable g).taken hp'), hsize, h a g _ hp'⟩

lemma goes_asked (hP : Lasting P) (q : Question) : c.Goes P (Proc.ask q) fun _ => P :=
  goes_ask hP q fun a _ _ h => hP.hears q a h

/-- An act when others have had their turn. -/
lemma goes_step (hP : Lasting P) {f : System → α × System} {Q : α → Diary → Transaction → Prop}
    (h : ∀ g s, c.tx < s.transactions.size → P g (s.tx c.tx) →
      ∃ g', c.Acts g s (f s).2 g' ∧ Q (f s).1 g' ((f s).2.tx c.tx)) :
    c.Goes P (do Proc.turn; Proc.step f) Q where
  still _ := rfl
  tracks g s hs hp := by
    intro s' a hs'
    have hp' : P g (s'.tx c.tx) := (hP.stable g).keeps hp (hs'.undisturbed hs)
    obtain ⟨g', hg, hq⟩ := h g s' (hs.trans_le hs'.size_le) hp'
    refine ⟨g', ?_, hg.works.size_eq ▸ hs.trans_le hs'.size_le, hq⟩
    rw [Responds, Diary.hear_turn]
    exact hg

lemma goes_change (hP : Lasting P) {f : System → System} {P' : Diary → Transaction → Prop}
    (h : ∀ g s, c.tx < s.transactions.size → P g (s.tx c.tx) →
      ∃ g', c.Acts g s (f s) g' ∧ P' g' ((f s).tx c.tx)) :
    c.Goes P (do Proc.turn; Proc.change f) fun _ => P' :=
  goes_step hP (f := fun s => ((), f s)) h

/-- A step under the lock. -/
lemma goes_locked (hP : Lasting P) {f : Transaction → α × Transaction}
    {Q : α → Diary → Transaction → Prop}
    (h : ∀ g t, P g t → c.Moves g t (f t).2 ∧ Q (f t).1 g (f t).2) : c.Goes P (c.locked f) Q := by
  refine goes_step hP fun g s hs hp => ?_
  obtain ⟨hf, hq⟩ := h g _ hp
  refine ⟨g, .moves hs hf, ?_⟩
  rw [System.tx_modifyTx_self _ hs]
  exact hq

lemma goes_update (hP : Lasting P) {f : Transaction → Transaction}
    {P' : Diary → Transaction → Prop} (h : ∀ g t, P g t → c.Moves g t (f t) ∧ P' g (f t)) :
    c.Goes P (c.update f) fun _ => P' :=
  goes_locked hP (f := fun t => ((), f t)) h

/-- The transaction as it is found now has the property, too. -/
lemma goes_current (hP : Lasting P) : c.Goes P c.current fun now g t => P g now ∧ P g t :=
  goes_step hP (f := fun s => (s.tx c.tx, s)) fun g _ hs hp =>
    ⟨g, acts_rest hs ((hP.stable g).taken hp), hp, hp⟩

/-- Of the transaction alone. -/
lemma Goes.proceeds {P' : Transaction → Prop} {x : Proc α} {Q : α → Diary → Transaction → Prop}
    {Q' : α → Transaction → Prop} (h : c.Goes P x Q) (hP : ∀ t, P' t → ∃ g, P g t)
    (hQ : ∀ a g t, Q a g t → Q' a t) : c.Proceeds P' x Q' := by
  refine ⟨fun s hs hp => ?_⟩
  obtain ⟨g, hg⟩ := hP _ hp
  exact (h.tracks g s hs hg).continues (fun _ _ _ _ _ _ h => h.works)
    fun a g _ h => ⟨h.1, hQ a g _ h.2⟩

lemma Goes.unnoted {P : Transaction → Prop} {x : Proc α} {struck : α → Bool} {n : α → Nat}
    {Q : α → Transaction → Prop}
    (h : c.Goes (Noted false 0 P) x fun a => Noted (struck a) (n a) (Q a)) : c.Proceeds P x Q :=
  h.proceeds (fun _ hp => ⟨{}, rfl, rfl, hp⟩) fun _ _ _ h => h.holds

/-- What begins with a step under the lock first lets others go on. -/
lemma locked_bind (c : Completion) (f : Transaction → α × Transaction) (k : α → Proc β)
    (s : System) :
    (c.locked f >>= k) s = .ask s .turn fun t _ =>
      k (f (t.tx c.tx)).1 (t.modifyTx c.tx fun x => (f x).2) :=
  rfl

end Completion

end TwoPhaseCommit
