import Mathlib.Tactic.Common
import TwoPhaseCommit.Files.Store

/-!
# Programs over a file store

What a program over a file store does is computed from what its parts do. Names do not change when
the content of a file does, and where a path already leads to a directory or to a file, nothing is
made.
-/

namespace TwoPhaseCommit

namespace FileM

variable {α β ε δ : Type} {fs fs' : FileStore}

@[simp] lemma exec_pure (a : α) : (pure a : FileM ε α).exec fs = (.ok a, fs) := rfl

@[simp] lemma exec_throw (e : ε) : (throw e : FileM ε α).exec fs = (.error e, fs) := rfl

@[simp] lemma exec_get : (get : FileM ε FileStore).exec fs = (.ok fs, fs) := rfl

@[simp] lemma exec_modify (f : FileStore → FileStore) :
    (modify f : FileM ε PUnit).exec fs = (.ok ⟨⟩, f fs) := rfl

lemma exec_bind (x : FileM ε α) (f : α → FileM ε β) :
    (x >>= f).exec fs =
      match x.exec fs with
      | (.ok a, fs') => (f a).exec fs'
      | (.error e, fs') => (.error e, fs') := by
  change (ExceptT.bindCont f (x.exec fs).1).run (x.exec fs).2 = _
  rcases x.exec fs with ⟨_ | _, _⟩ <;> rfl

lemma exec_bind_of_ok {x : FileM ε α} {a : α} (f : α → FileM ε β) (h : x.exec fs = (.ok a, fs')) :
    (x >>= f).exec fs = (f a).exec fs' := by
  rw [exec_bind, h]

lemma exec_bind_of_error {x : FileM ε α} {e : ε} (f : α → FileM ε β)
    (h : x.exec fs = (.error e, fs')) : (x >>= f).exec fs = (.error e, fs') := by
  rw [exec_bind, h]

lemma exec_discard {x : FileM ε α} {a : α} (h : x.exec fs = (.ok a, fs')) :
    (discard x : FileM ε Unit).exec fs = (.ok (), fs') := by
  rw [show (discard x : FileM ε Unit) = x >>= fun _ => pure () from rfl, exec_bind_of_ok _ h,
    exec_pure]

@[simp] lemma exec_ask (f : FileStore → Except ε α) : (ask f).exec fs = (f fs, fs) := by
  rw [ask, exec_bind_of_ok _ exec_get]
  cases f fs <;> rfl

lemma exec_ask_of_ok {f : FileStore → Except ε α} {a : α} (h : f fs = .ok a) :
    (ask f).exec fs = (.ok a, fs) := by
  rw [exec_ask, h]

lemma exec_tryCatch (x : FileM ε α) (handle : ε → FileM ε α) :
    (tryCatch x handle).exec fs =
      match x.exec fs with
      | (.ok a, fs') => (.ok a, fs')
      | (.error e, fs') => (handle e).exec fs' := by
  simp only [exec, tryCatch, tryCatchThe, MonadExceptOf.tryCatch, ExceptT.tryCatch, ExceptT.run,
    ExceptT.mk, StateT.run, bind, StateT.bind]
  rcases x fs with ⟨_ | _, _⟩ <;> rfl

lemma exec_mapError (f : ε → δ) (x : FileM ε α) :
    (mapError f x).exec fs = ((x.exec fs).1.mapError f, (x.exec fs).2) := rfl

lemma exec_mapError_of_ok {f : ε → δ} {x : FileM ε α} {a : α} (h : x.exec fs = (.ok a, fs')) :
    (mapError f x).exec fs = (.ok a, fs') := by
  rw [exec_mapError, h]
  rfl

lemma exec_mapError_of_error {f : ε → δ} {x : FileM ε α} {e : ε}
    (h : x.exec fs = (.error e, fs')) : (mapError f x).exec fs = (.error (f e), fs') := by
  rw [exec_mapError, h]
  rfl

/-! What succeeded, and what failed, is taken apart. -/

lemma exec_bind_ok {x : FileM ε α} {f : α → FileM ε β} {b : β}
    (h : (x >>= f).exec fs = (.ok b, fs')) :
    ∃ a mid, x.exec fs = (.ok a, mid) ∧ (f a).exec mid = (.ok b, fs') := by
  rw [exec_bind] at h
  split at h
  next a mid hx => exact ⟨a, mid, hx, h⟩
  next => cases h

lemma exec_bind_error {x : FileM ε α} {f : α → FileM ε β} {e : ε}
    (h : (x >>= f).exec fs = (.error e, fs')) :
    x.exec fs = (.error e, fs') ∨
      ∃ a mid, x.exec fs = (.ok a, mid) ∧ (f a).exec mid = (.error e, fs') := by
  rw [exec_bind] at h
  split at h
  next a mid hx => exact .inr ⟨a, mid, hx, h⟩
  next e' mid hx =>
    cases h
    exact .inl hx

lemma exec_mapError_ok {f : ε → δ} {x : FileM ε α} {a : α}
    (h : (mapError f x).exec fs = (.ok a, fs')) : x.exec fs = (.ok a, fs') := by
  rw [exec_mapError] at h
  rcases hx : x.exec fs with ⟨e | b, mid⟩
  · rw [hx] at h
    cases h
  · rw [hx] at h
    cases h
    rfl

lemma exec_mapError_error {f : ε → δ} {x : FileM ε α} {e : δ}
    (h : (mapError f x).exec fs = (.error e, fs')) :
    ∃ e', x.exec fs = (.error e', fs') ∧ f e' = e := by
  rw [exec_mapError] at h
  rcases hx : x.exec fs with ⟨e' | b, mid⟩
  · rw [hx] at h
    cases h
    exact ⟨e', rfl, rfl⟩
  · rw [hx] at h
    cases h

lemma exec_ask_ok {f : FileStore → Except ε α} {a : α} (h : (ask f).exec fs = (.ok a, fs')) :
    f fs = .ok a ∧ fs' = fs := by
  rw [exec_ask] at h
  exact ⟨congrArg Prod.fst h, (congrArg Prod.snd h).symm⟩

lemma exec_ask_error {f : FileStore → Except ε α} {e : ε}
    (h : (ask f).exec fs = (.error e, fs')) : fs' = fs := by
  rw [exec_ask] at h
  exact (congrArg Prod.snd h).symm

lemma exec_observing (x : FileM IoError Unit) (fs : FileStore) :
    (makeNested.observing x).exec fs = (.ok (x.exec fs).1, (x.exec fs).2) := rfl

end FileM

namespace FileStore

variable {fs fs' : FileStore} {id : FileId} {bs : Bytes} {path : String}

/-! ### Names -/

lemma here_congr (h : fs'.root = fs.root) (trail : Trail) : fs'.here trail = fs.here trail := by
  cases trail with
  | nil => exact h
  | cons _ _ => rfl

lemma walk_congr (h : fs'.root = fs.root) (trail : Trail) (steps : List String) :
    fs'.walk trail steps = fs.walk trail steps := by
  fun_induction fs.walk trail steps with
  | case1 => rw [walk]
  | case2 _ _ ih => rw [walk, ih]
  | case3 _ _ ih => rw [walk, ih]
  | case4 _ s ss hdot hdots hlong => rw [walk, if_pos hlong] <;> assumption
  | case5 _ s ss hdot hdots hlong hnone =>
    rw [walk, if_neg hlong, here_congr h, hnone] <;> assumption
  | case6 _ s ss hdot hdots hlong _ hfile =>
    rw [walk, if_neg hlong, here_congr h, hfile] <;> assumption
  | case7 _ s ss hdot hdots hlong t hdir htree ih =>
    cases t with
    -- files are the case before
    | file id => exact (hdir id rfl).elim
    | directory es =>
      rw [walk, if_neg hlong, here_congr h, htree]
      · exact ih
      · assumption
      · assumption

lemma approach_congr (h : fs'.root = fs.root) (path : String) :
    fs'.approach path = fs.approach path := by
  simp only [approach, walk_congr h]

lemma locate_congr (h : fs'.root = fs.root) (path : String) : fs'.locate path = fs.locate path := by
  simp only [locate, approach_congr h, here_congr h]

lemma stat_congr (h : fs'.root = fs.root) (path : String) : fs'.stat path = fs.stat path := by
  rw [stat, stat, locate_congr h]

lemma openFile_congr (h : fs'.root = fs.root) (path : String) :
    fs'.openFile path = fs.openFile path := by
  rw [openFile, openFile, stat_congr h]

/-- Locks do not matter. -/
lemma openFile_locked (fs : FileStore) (ids : List FileId) (path : String) :
    FileStore.openFile { fs with locked := ids } path = fs.openFile path := by
  have hroot : ({ fs with locked := ids } : FileStore).root = fs.root := rfl
  exact openFile_congr hroot path

lemma isDirectory_congr (h : fs'.root = fs.root) (path : String) :
    fs'.isDirectory path = fs.isDirectory path := by
  rw [isDirectory, isDirectory, stat_congr h]

/-! ### Content -/

lemma root_setContent (fs : FileStore) (id : FileId) (bs : Bytes) :
    (fs.setContent id bs).root = fs.root := rfl

lemma content_setContent (h : id < fs.contents.size) (bs : Bytes) :
    (fs.setContent id bs).content id = bs := by
  simp [content, setContent, h]

lemma content_setContent_of_ne {other : FileId} (h : other ≠ id) (bs : Bytes) :
    (fs.setContent id bs).content other = fs.content other := by
  simp [content, setContent, Ne.symm h]

/-- To write what is there changes nothing. -/
lemma setContent_content (fs : FileStore) (id : FileId) :
    fs.setContent id (fs.content id) = fs := by
  have hsame : fs.contents.setIfInBounds id (fs.contents.getD id []) = fs.contents := by
    ext i hi hi'
    · simp
    · rw [Array.getElem_setIfInBounds]
      split
      next heq =>
        subst heq
        simp [hi']
      next => rfl
  rw [setContent, content, hsame]

/-! ### What stands at a path -/

lemma locate_of_stat {node : Node} (h : fs.stat path = .ok node) :
    ∃ place, fs.locate path = .ok place ∧ place.node = some node ∧
      (node ≠ .directory → place.directoryOnly = false) := by
  rw [stat] at h
  cases hplace : fs.locate path with
  | error e =>
    rw [hplace] at h
    cases h
  | ok place =>
    rw [hplace] at h
    simp only [bind, Except.bind] at h
    refine ⟨place, rfl, ?_⟩
    split at h
    next => cases h
    next hnode =>
      cases h
      exact ⟨hnode, fun hne => absurd rfl hne⟩
    next id hnode =>
      split at h
      next => cases h
      next honly =>
        cases h
        exact ⟨hnode, fun _ => Bool.not_eq_true _ ▸ honly⟩

lemma approach_of_locate {place : Place} (h : fs.locate path = .ok place) :
    ∃ a, fs.approach path = .ok a := by
  rw [locate] at h
  cases happroach : fs.approach path with
  | error e =>
    rw [happroach] at h
    cases h
  | ok a => exact ⟨a, rfl⟩

lemma directoryOnly_of_locate {place : Place} (h : fs.locate path = .ok place)
    (hne : place.node ≠ some .directory) : place.directoryOnly = Path.hasTrailingSlash path := by
  obtain ⟨⟨trail, last⟩, happroach⟩ := approach_of_locate h
  rw [locate, happroach] at h
  simp only [bind, Except.bind] at h
  split at h
  next => cases h; exact absurd rfl hne
  next =>
    split at h
    next => cases h; exact absurd rfl hne
    next =>
      split at h
      next => cases h
      next => cases h; rfl

lemma stat_of_isDirectory (h : fs.isDirectory path = true) : fs.stat path = .ok .directory := by
  rw [isDirectory] at h
  split at h
  next hstat => exact hstat
  next => cases h

lemma stat_of_openFile (h : fs.openFile path = .ok id) : fs.stat path = .ok (.file id) := by
  rw [openFile] at h
  cases hstat : fs.stat path with
  | error e =>
    rw [hstat] at h
    cases h
  | ok node =>
    rw [hstat] at h
    cases node with
    | directory => cases h
    | file _ =>
      cases h
      rfl

end FileStore

namespace FileM

variable {fs : FileStore} {id : FileId} {path dir : String}

/-- Where a directory is, making it and those above it changes nothing. -/
lemma exec_makeTree (h : dir = "" ∨ fs.isDirectory dir = true) :
    (makeTree dir).exec fs = (.ok (), fs) := by
  by_cases hempty : dir = ""
  · rw [makeTree, if_pos hempty, exec_pure]
  have hdir := h.resolve_left hempty
  obtain ⟨place, hplace, hnode, -⟩ := FileStore.locate_of_stat (FileStore.stat_of_isDirectory hdir)
  have hmake : (makeDirectory dir).exec fs = (.error .alreadyExists, fs) := by
    rw [makeDirectory, exec_bind_of_ok _ (exec_ask_of_ok hplace), hnode, exec_throw]
  have hobserve := exec_observing (makeDirectory dir) fs
  rw [hmake] at hobserve
  rw [makeTree, if_neg hempty, makeNested, exec_bind_of_ok _ hobserve]
  dsimp only
  rw [exec_bind_of_ok _ exec_get, hdir]
  rfl

/-- Where a file is, it is opened. -/
lemma exec_openOrCreate (h : fs.openFile path = .ok id) :
    (openOrCreate path).exec fs = (.ok id, fs) := by
  obtain ⟨place, hplace, hnode, honly⟩ := FileStore.locate_of_stat (FileStore.stat_of_openFile h)
  obtain ⟨a, happroach⟩ := FileStore.approach_of_locate hplace
  have hslash : Path.hasTrailingSlash path = false := by
    rw [← FileStore.directoryOnly_of_locate hplace (by rw [hnode]; simp), honly (by simp)]
  rw [openOrCreate, exec_bind_of_ok _ (exec_discard (exec_ask_of_ok happroach)), hslash]
  simp only [Bool.false_eq_true, if_false]
  rw [exec_bind_of_ok _ (exec_ask_of_ok hplace), hnode, exec_pure]

/-- Where nothing is, an empty file is made. -/
lemma exec_openOrCreate_of_none {place : FileStore.Place} (hplace : fs.locate path = .ok place)
    (hnode : place.node = none) (honly : place.directoryOnly = false) :
    (openOrCreate path).exec fs = (.ok fs.contents.size,
      { fs.link place.location (.file fs.contents.size) with contents := fs.contents.push [] }) := by
  obtain ⟨a, happroach⟩ := FileStore.approach_of_locate hplace
  have hslash : Path.hasTrailingSlash path = false := by
    rw [← FileStore.directoryOnly_of_locate hplace (by rw [hnode]; simp), honly]
  rw [openOrCreate, exec_bind_of_ok _ (exec_discard (exec_ask_of_ok happroach)), hslash]
  simp only [Bool.false_eq_true, if_false]
  rw [exec_bind_of_ok _ (exec_ask_of_ok hplace), hnode]
  rfl

end FileM

end TwoPhaseCommit
