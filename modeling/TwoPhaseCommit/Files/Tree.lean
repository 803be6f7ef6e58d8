/-!
# Trees of names

A directory holds directories and files under names; a file is known by an identity. What stands in
a tree is looked up and replaced at a location: the names that lead to it from the root.
-/

namespace TwoPhaseCommit

/-- The identity of a file's content. -/
abbrev FileId := Nat

inductive Node
  | directory
  | file (id : FileId)
deriving DecidableEq, Inhabited

/-- A directory with all that is below it, or a file. -/
inductive Tree
  | file (id : FileId)
  | directory (entries : List (String × Tree))

namespace Tree

/-- A tree without what is below it. -/
def node : Tree → Node
  | file id => .file id
  | directory _ => .directory

def child? : Tree → String → Option Tree
  | file _, _ => none
  | directory es, name => es.lookup name

/-- What stands at a location. -/
def get? : Tree → (location : List String) → Option Tree
  | t, [] => some t
  | t, name :: names =>
    match t.child? name with
    | none => none
    | some u => u.get? names

/-- Replace what stands under a name; `none` removes the name. -/
def setChild (name : String) (new : Option Tree) : Tree → Tree
  | file id => file id
  | directory es => directory (new.toList.map (name, ·) ++ es.filter (·.1 ≠ name))

/-- Replace what stands at a location below the root; `none` removes its last name. Nothing happens
if a directory on the way is missing. -/
def set (new : Option Tree) : (location : List String) → Tree → Tree
  | [], t => t
  | [name], t => t.setChild name new
  | name :: names, t =>
    match t.child? name with
    | none => t
    | some u => t.setChild name (some (set new names u))

@[simp] theorem get?_nil (t : Tree) : t.get? [] = some t := by simp [get?]

theorem get?_cons (t : Tree) (name : String) (names : List String) :
    t.get? (name :: names) = (t.child? name).bind (·.get? names) := by
  rw [get?]
  cases t.child? name <;> rfl

/-- A replacement touches one name only. -/
theorem child?_setChild (es : List (String × Tree)) (name q : String) (new : Option Tree) :
    ((directory es).setChild name new).child? q =
      if q = name then new else (directory es).child? q := by
  have kept : (es.filter (·.1 ≠ name)).lookup q = if q = name then none else es.lookup q := by
    induction es with
    | nil => simp
    | cons e es ih =>
      obtain ⟨k, t⟩ := e
      by_cases hk : k = name
      · subst hk
        rw [List.filter_cons_of_neg (by simp), ih, List.lookup_cons]
        by_cases hq : q = k
        · simp [hq]
        · simp [hq, beq_false_of_ne hq]
      · rw [List.filter_cons_of_pos (by simp [hk]), List.lookup_cons, List.lookup_cons, ih]
        by_cases hq : q = k
        · simp [hq, hk]
        · simp [beq_false_of_ne hq]
  cases new with
  | none => simpa [setChild, child?] using kept
  | some t =>
    by_cases hq : q = name
    · simp [setChild, child?, hq]
    · simpa [setChild, child?, List.lookup_cons, hq, beq_false_of_ne hq] using kept

end Tree

end TwoPhaseCommit
