import Mathlib.Tactic.Common
import TwoPhaseCommit.Coordinator.Dialogue

/-!
# The course of a dialogue

Others change the system while a question is open. How they may change it is a relation `R` between
the system that a question leaves and the system that its answer finds. `Dialogue.Leads` says how
far a dialogue may come under `R`, with which exchanges; `Dialogue.Continues` says that what it does
itself stays within a relation `G`, as long as the others stay within `R`, and that it ends well.
`Dialogue.Tracks` says the same step by step, with a record that is kept of what was done.
`Proc.Says` leaves the systems out and keeps what is said.
-/

namespace TwoPhaseCommit

/-- A question that was put and the answer to it. -/
structure Exchange where
  question : Question
  answer : question.Answer

/-- What is noted of an answer. A turn of others is not noted. -/
def Exchange.note (q : Question) (a : q.Answer) : List Exchange :=
  if q = .turn then [] else [⟨q, a⟩]

@[simp] lemma Exchange.note_turn (a : Question.turn.Answer) : note .turn a = [] := rfl

lemma Exchange.note_of_ne {q : Question} (hq : q ≠ .turn) (a : q.Answer) : note q a = [⟨q, a⟩] :=
  if_neg hq

namespace Dialogue

variable {α β : Type} {R G : System → System → Prop}

/-- The system as the dialogue leaves it for now. -/
def system : Dialogue α → System
  | done s _ => s
  | ask s _ _ => s

/-- What goes on after the end of a dialogue, and does not change the system before it has asked
anything, leaves the system as it was. -/
lemma system_bind {f : System → α → Dialogue β} (hf : ∀ s a, (f s a).system = s) (d : Dialogue α) :
    (bind f d).system = d.system := by
  cases d with
  | done s a => exact hf s a
  | ask s q next => rfl

/-! ### Exchanges -/

/-- From one dialogue to what is left of it, and the exchanges in between. -/
inductive Leads (R : System → System → Prop) : Dialogue α → List Exchange → Dialogue α → Prop
  | refl (d : Dialogue α) : Leads R d [] d
  | answer {s s' : System} {q : Question} {next : System → q.Answer → Dialogue α} {a : q.Answer}
      {es : List Exchange} {d : Dialogue α} (hs : R s s') (h : Leads R (next s' a) es d) :
      Leads R (ask s q next) (Exchange.note q a ++ es) d

/-- A dialogue from beginning to end. -/
def Ends (R : System → System → Prop) (d : Dialogue α) (es : List Exchange) (s : System) (a : α) :
    Prop :=
  Leads R d es (done s a)

@[simp] lemma ends_done_iff {s t : System} {a b : α} {es : List Exchange} :
    Ends R (done s a) es t b ↔ es = [] ∧ t = s ∧ b = a := by
  constructor
  · intro h
    cases h
    exact ⟨rfl, rfl, rfl⟩
  · rintro ⟨rfl, rfl, rfl⟩
    exact .refl _

lemma ends_ask_iff {s t : System} {q : Question} {next : System → q.Answer → Dialogue α} {b : α}
    {es : List Exchange} :
    Ends R (ask s q next) es t b ↔
      ∃ s' a es', R s s' ∧ es = Exchange.note q a ++ es' ∧ Ends R (next s' a) es' t b := by
  constructor
  · intro h
    cases h with
    | answer hs h => exact ⟨_, _, _, hs, rfl, h⟩
  · rintro ⟨s', a, es', hs, rfl, h⟩
    exact .answer hs h

/-- To hold a dialogue that goes on is to hold one part and then the other. -/
lemma ends_bind_iff {f : System → α → Dialogue β} {d : Dialogue α} {es : List Exchange}
    {t : System} {b : β} :
    Ends R (bind f d) es t b ↔
      ∃ es₁ s a es₂, Ends R d es₁ s a ∧ Ends R (f s a) es₂ t b ∧ es = es₁ ++ es₂ := by
  induction d generalizing es with
  | done s a =>
    constructor
    · intro h
      exact ⟨[], s, a, es, ends_done_iff.mpr ⟨rfl, rfl, rfl⟩, h, rfl⟩
    · rintro ⟨es₁, s', a', es₂, h₁, h₂, rfl⟩
      obtain ⟨rfl, rfl, rfl⟩ := ends_done_iff.mp h₁
      exact h₂
  | ask s q next ih =>
    rw [bind_ask, ends_ask_iff]
    constructor
    · rintro ⟨s', a, es', hs, rfl, h⟩
      obtain ⟨es₁, s₁, a₁, es₂, h₁, h₂, rfl⟩ := (ih s' a).mp h
      exact ⟨_, s₁, a₁, es₂, .answer hs h₁, h₂, (List.append_assoc ..).symm⟩
    · rintro ⟨es₁, s₁, a₁, es₂, h₁, h₂, rfl⟩
      obtain ⟨s', a, es', hs, rfl, h⟩ := ends_ask_iff.mp h₁
      exact ⟨s', a, _, hs, List.append_assoc .., (ih s' a).mpr ⟨_, _, _, _, h, h₂, rfl⟩⟩

/-! ### Own steps -/

/-- From one dialogue to what is left of it, with the exchanges and the dialogue's own steps: for
each of them the system that it found and the system that it left. -/
inductive Runs (R : System → System → Prop) :
    Dialogue α → List Exchange → List (System × System) → Dialogue α → Prop
  | refl (d : Dialogue α) : Runs R d [] [] d
  | answer {s s' : System} {q : Question} {next : System → q.Answer → Dialogue α} {a : q.Answer}
      {es : List Exchange} {ps : List (System × System)} {d : Dialogue α} (hs : R s s')
      (h : Runs R (next s' a) es ps d) :
      Runs R (ask s q next) (Exchange.note q a ++ es) ((s', (next s' a).system) :: ps) d

section Runs

variable {d d' : Dialogue α} {es : List Exchange} {ps : List (System × System)}

lemma Runs.leads (h : Runs R d es ps d') : Leads R d es d' := by
  induction h with
  | refl d => exact .refl d
  | answer hs _ ih => exact .answer hs ih

lemma Runs.trans {d'' : Dialogue α} {es' : List Exchange} {ps' : List (System × System)}
    (h : Runs R d es ps d') (h' : Runs R d' es' ps' d'') :
    Runs R d (es ++ es') (ps ++ ps') d'' := by
  induction h with
  | refl => exact h'
  | answer hs _ ih =>
    rw [List.append_assoc, List.cons_append]
    exact .answer hs (ih h')

/-- One more step. -/
lemma Runs.snoc {s s' : System} {q : Question} {next : System → q.Answer → Dialogue α}
    (h : Runs R d es ps (ask s q next)) (hs : R s s') (a : q.Answer) :
    Runs R d (es ++ Exchange.note q a) (ps ++ [(s', (next s' a).system)]) (next s' a) := by
  have h' :
      Runs R (ask s q next) (Exchange.note q a ++ []) [(s', (next s' a).system)] (next s' a) :=
    .answer hs (.refl _)
  rw [List.append_nil] at h'
  exact h.trans h'

lemma runs_ask_iff {s : System} {q : Question} {next : System → q.Answer → Dialogue α} {t : System}
    {b : α} :
    Runs R (ask s q next) es ps (done t b) ↔
      ∃ s' a es' ps', R s s' ∧ es = Exchange.note q a ++ es' ∧
        ps = (s', (next s' a).system) :: ps' ∧ Runs R (next s' a) es' ps' (done t b) := by
  constructor
  · intro h
    cases h with
    | answer hs h => exact ⟨_, _, _, _, hs, rfl, rfl, h⟩
  · rintro ⟨s', a, es', ps', hs, rfl, rfl, h⟩
    exact .answer hs h

lemma runs_done_iff {s t : System} {a b : α} :
    Runs R (done s a) es ps (done t b) ↔ es = [] ∧ ps = [] ∧ t = s ∧ b = a := by
  constructor
  · intro h
    cases h
    exact ⟨rfl, rfl, rfl, rfl⟩
  · rintro ⟨rfl, rfl, rfl, rfl⟩
    exact .refl _

/-- To run a dialogue that goes on with a question is to run one part and then the other. -/
lemma Runs.bind {f : System → α → Dialogue β} (hf : ∀ s a, (f s a).system = s) {t : System} {b : β}
    (h : Runs R (Dialogue.bind f d) es ps (done t b)) :
    ∃ es₁ ps₁ s a es₂ ps₂, Runs R d es₁ ps₁ (done s a) ∧ Runs R (f s a) es₂ ps₂ (done t b) ∧
      es = es₁ ++ es₂ ∧ ps = ps₁ ++ ps₂ := by
  induction d generalizing es ps with
  | done s a => exact ⟨[], [], s, a, es, ps, .refl _, h, rfl, rfl⟩
  | ask s q next ih =>
    obtain ⟨s', a, es', ps', hs, rfl, rfl, h'⟩ := runs_ask_iff.mp h
    obtain ⟨es₁, ps₁, s₁, a₁, es₂, ps₂, h₁, h₂, rfl, rfl⟩ := ih s' a h'
    refine ⟨_, _, s₁, a₁, es₂, ps₂, .answer hs h₁, h₂, (List.append_assoc ..).symm, ?_⟩
    rw [system_bind hf]
    rfl

end Runs

/-- Some answer to a question. -/
def someAnswer : (q : Question) → q.Answer
  | .prepare .. => .ok .commit
  | .commit .. | .rollback .. | .beforeCompletion _ | .afterCompletion .. => .ok ()
  | .inDoubt _ => .ok []
  | .append .. | .replace .. => .ok ()
  | .readAll _ => .ok []
  | .turn => ()

/-- A dialogue in which nobody else is at work, and a question is answered the same whenever it is
put. -/
def play (reply : (q : Question) → q.Answer) : Dialogue α → List Exchange × α
  | done _ a => ([], a)
  | ask s q next =>
    let (es, a) := play reply (next s (reply q))
    (Exchange.note q (reply q) ++ es, a)

lemma ends_play (reply : (q : Question) → q.Answer) (d : Dialogue α) :
    ∃ s, Ends Eq d (d.play reply).1 s (d.play reply).2 := by
  induction d with
  | done s a => exact ⟨s, .refl _⟩
  | ask s q next ih =>
    obtain ⟨t, ht⟩ := ih s (reply q)
    exact ⟨t, .answer rfl ht⟩

/-! ### What a dialogue does itself -/

/-- From here on the dialogue changes the system by `G` only and ends with `Q`, as long as others
change it by `R` only. -/
def Continues (R G : System → System → Prop) (Q : α → System → Prop) : Dialogue α → Prop
  | done s a => Q a s
  | ask s _ next => ∀ s' a, R s s' → G s' (next s' a).system ∧ Continues R G Q (next s' a)

lemma Continues.leads {Q : α → System → Prop} {d d' : Dialogue α} {es : List Exchange}
    (h : Continues R G Q d) (hd : Leads R d es d') : Continues R G Q d' := by
  induction hd with
  | refl => exact h
  | answer hs _ ih => exact ih (h _ _ hs).2

lemma Continues.ends {Q : α → System → Prop} {d : Dialogue α} {es : List Exchange} {s : System}
    {a : α} (h : Continues R G Q d) (hd : Ends R d es s a) : Q a s :=
  h.leads hd

/-- A dialogue can be brought to its end, with no others at work from a system `s` on. -/
lemma Continues.exists_runs (hR : ∀ s, R s s) (hG : ∀ s t u, G s t → G t u → G s u)
    {Q : α → System → Prop} {d : Dialogue α} (h : Continues R G Q d) {s : System}
    (hs : R d.system s) : ∃ es ps t a, Runs R d es ps (.done t a) ∧ (d = .done t a ∨ G s t) := by
  induction d generalizing s with
  | done t a => exact ⟨[], [], t, a, .refl _, .inl rfl⟩
  | ask t q next ih =>
    obtain ⟨hg, hc⟩ := h s (someAnswer q) hs
    obtain ⟨es, ps, u, a, he, hu⟩ := ih s (someAnswer q) hc (hR _)
    refine ⟨_, _, u, a, .answer hs he, .inr ?_⟩
    rcases hu with hu | hu
    · rw [hu] at hg
      exact hg
    · exact hG _ _ _ hg hu

/-! ### What a dialogue does itself, on record -/

section Tracks

variable {γ : Type} {G : γ → (q : Question) → q.Answer → System → System → γ → Prop}
  {Q : α → γ → System → Prop} {d : Dialogue α} {g : γ}

/-- From here on the dialogue changes the system only as `G` allows, which tells also how the record
that is kept of the dialogue goes on; and it ends with `Q`. Others change the system by `R` only. -/
def Tracks (R : System → System → Prop)
    (G : γ → (q : Question) → q.Answer → System → System → γ → Prop) (Q : α → γ → System → Prop) :
    Dialogue α → γ → Prop
  | done s a, g => Q a g s
  | ask s q next, g => ∀ s' a, R s s' →
    ∃ g', G g q a s' (next s' a).system g' ∧ Tracks R G Q (next s' a) g'

lemma Tracks.mono {Q' : α → γ → System → Prop} (hQ : ∀ a g s, Q a g s → Q' a g s)
    (h : d.Tracks R G Q g) : d.Tracks R G Q' g := by
  induction d generalizing g with
  | done s a => exact hQ a g s h
  | ask s q next ih =>
    intro s' a hs
    obtain ⟨g', hg, h'⟩ := h s' a hs
    exact ⟨g', hg, ih s' a h'⟩

/-- What goes on after the end does not change the system before it has asked anything. -/
lemma Tracks.bind {Q' : β → γ → System → Prop} {f : System → α → Dialogue β}
    (hf : ∀ s a, (f s a).system = s) (h : d.Tracks R G Q g)
    (hQ : ∀ a g s, Q a g s → (f s a).Tracks R G Q' g) : (Dialogue.bind f d).Tracks R G Q' g := by
  induction d generalizing g with
  | done s a => exact hQ a g s h
  | ask s q next ih =>
    intro s' a hs
    obtain ⟨g', hg, h'⟩ := h s' a hs
    rw [← system_bind hf] at hg
    exact ⟨g', hg, ih s' a h'⟩

lemma Tracks.continues {G' : System → System → Prop} {Q' : α → System → Prop}
    (hG : ∀ g q a s t g', G g q a s t g' → G' s t) (hQ : ∀ a g s, Q a g s → Q' a s)
    (h : d.Tracks R G Q g) : d.Continues R G' Q' := by
  induction d generalizing g with
  | done s a => exact hQ a g s h
  | ask s q next ih =>
    intro s' a hs
    obtain ⟨g', hg, h'⟩ := h s' a hs
    exact ⟨hG _ _ _ _ _ _ hg, ih s' a h'⟩

end Tracks

end Dialogue

namespace Proc

variable {α β : Type} {x : Proc α} {f : α → Proc β} {es : List Exchange} {a : α} {b : β}

/-! ### What is said -/

/-- With these exchanges, in whatever surroundings, a procedure may come to this end. -/
def Says (x : Proc α) (es : List Exchange) (a : α) : Prop := ∃ R s t, (x s).Ends R es t a

/-- A procedure that asks nothing, though others may have their turn. -/
def Quiet (x : Proc α) : Prop := ∀ es a, x.Says es a → es = []

lemma says_pure {a' : α} (h : (pure a : Proc α).Says es a') : es = [] ∧ a' = a := by
  obtain ⟨R, s, t, h⟩ := h
  obtain ⟨he, -, ha⟩ := Dialogue.ends_done_iff.mp h
  exact ⟨he, ha⟩

lemma says_view {g : System → α} (h : (view g).Says es a) : es = [] := by
  obtain ⟨R, s, t, h⟩ := h
  exact (Dialogue.ends_done_iff.mp h).1

lemma says_ask {q : Question} {a : q.Answer} (h : (ask q).Says es a) : es = Exchange.note q a := by
  obtain ⟨R, s, t, h⟩ := h
  obtain ⟨s', a', es', -, he, h⟩ := Dialogue.ends_ask_iff.mp h
  obtain ⟨rfl, -, rfl⟩ := Dialogue.ends_done_iff.mp h
  rw [he, List.append_nil]

lemma Says.bind (h : (x >>= f).Says es b) :
    ∃ es₁ a es₂, x.Says es₁ a ∧ (f a).Says es₂ b ∧ es = es₁ ++ es₂ := by
  obtain ⟨R, s, t, h⟩ := h
  obtain ⟨es₁, s', a, es₂, h₁, h₂, he⟩ := Dialogue.ends_bind_iff.mp h
  exact ⟨es₁, a, es₂, ⟨R, s, s', h₁⟩, ⟨R, s', t, h₂⟩, he⟩

/-- What follows a question. -/
lemma Says.after {q : Question} {f : q.Answer → Proc β} (h : (ask q >>= f).Says es b)
    (hq : q ≠ .turn) : ∃ a es', (f a).Says es' b ∧ es = ⟨q, a⟩ :: es' := by
  obtain ⟨es₁, a, es₂, h₁, h₂, rfl⟩ := h.bind
  rw [says_ask h₁, Exchange.note_of_ne hq]
  exact ⟨a, es₂, h₂, rfl⟩

/-- What follows a quiet part. -/
lemma Says.beyond (h : (x >>= f).Says es b) (hx : x.Quiet) : ∃ a, (f a).Says es b := by
  obtain ⟨es₁, a, es₂, h₁, h₂, rfl⟩ := h.bind
  rw [hx es₁ a h₁]
  exact ⟨a, h₂⟩

lemma Says.map {f : α → β} (h : (f <$> x).Says es b) : ∃ a, x.Says es a ∧ b = f a := by
  obtain ⟨es₁, a, es₂, h₁, h₂, rfl⟩ := h.bind
  obtain ⟨rfl, rfl⟩ := says_pure h₂
  rw [List.append_nil]
  exact ⟨a, h₁, rfl⟩

lemma Says.discard {u : Unit} (h : (discard x).Says es u) : ∃ a, x.Says es a := by
  obtain ⟨a, ha, -⟩ := h.map
  exact ⟨a, ha⟩

lemma quiet_view (g : System → α) : (view g).Quiet := fun _ _ h => says_view h

lemma quiet_change (g : System → System) : (change g).Quiet := by
  rintro es a ⟨R, s, t, h⟩
  exact (Dialogue.ends_done_iff.mp h).1

lemma quiet_step (g : System → α × System) : (step g).Quiet := by
  rintro es a ⟨R, s, t, h⟩
  exact (Dialogue.ends_done_iff.mp h).1

lemma quiet_turn : turn.Quiet := fun _ _ h => says_ask h

lemma Quiet.bind (hx : x.Quiet) (hf : ∀ a, (f a).Quiet) : (x >>= f).Quiet := by
  intro es b h
  obtain ⟨a, h⟩ := h.beyond hx
  exact hf a es b h

end Proc

end TwoPhaseCommit
