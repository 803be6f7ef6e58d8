import TwoPhaseCommit.Proofs.Growth
import TwoPhaseCommit.Proofs.Passes
import TwoPhaseCommit.Service

/-!
# Opening a service

A service takes its directory and then recovers the log (`Opening.Attempt`). What fails on the way
leaves in the files what was there. Recovery touches them in one place only, where it replaces the
records of the log (`Recovery.Recovers.serves_cases`).
-/

namespace TwoPhaseCommit

variable {fs fs₁ fs₂ : FileStore} {e : SystemFault} {dir : String} {c : ServiceConfig} {o : Opening}

/-! ### The log of a configuration -/

lemma LogConfig.exec_validate (c : LogConfig) (fs : FileStore) :
    (∃ e, (FileM.mapError (StorageError.invalidOperation ∘ .config)
      (FileM.ask c.validate)).exec fs = (.error e, fs)) ∨
    c.validate fs = .ok () ∧ (FileM.mapError (StorageError.invalidOperation ∘ .config)
      (FileM.ask c.validate)).exec fs = (.ok (), fs) := by
  cases hv : c.validate fs with
  | error e => exact .inl ⟨_, FileM.exec_mapError_of_error (by rw [FileM.exec_ask, hv])⟩
  | ok u => exact .inr ⟨rfl, FileM.exec_mapError_of_ok (FileM.exec_ask_of_ok hv)⟩

/-- A log is opened in memory or in its file. -/
lemma LogConfig.open_cases (h : fs.WellFormed) (c : LogConfig) :
    (∃ e fs₁, c.open.exec fs = (.error e, fs₁) ∧ fs₁.WellFormed ∧ fs.Grows fs₁) ∨
    c.mode = .cache ∧ c.open.exec fs = (.ok (.memory []), fs) ∨
    c.mode = .always ∧ ∃ log fs₁ bs s, log.path = c.path ∧ fs₁.WellFormed ∧ fs.Grows fs₁ ∧
      log.Holds fs₁ bs ∧ LogScan.scan bs = .ok s ∧
      c.open.exec fs = (.ok (.file log), fs₁.setContent log.file (bs.take s.validLength)) := by
  rw [LogConfig.open]
  rcases c.exec_validate fs with ⟨e, he⟩ | ⟨-, hv⟩
  · exact .inl ⟨e, fs, FileM.exec_bind_of_error _ he, h, .refl fs⟩
  rw [FileM.exec_bind_of_ok _ hv]
  cases hmode : c.mode with
  | cache => exact .inr (.inl ⟨rfl, rfl⟩)
  | always =>
    have hmap (x : FileM StorageError FileLog) : Log.file <$> x = x >>= fun l => pure (.file l) := rfl
    rcases FileLog.open_cases h c.path with
      ⟨e, fs₁, hx, hrest⟩ | ⟨log, fs₁, bs, s, hpath, h₁, hgrows, hholds, hscan, hx⟩
    · refine .inl ⟨e, fs₁, ?_, hrest⟩
      dsimp only
      rw [hmap, FileM.exec_bind_of_error _ hx]
    · refine .inr (.inr ⟨rfl, log, fs₁, bs, s, hpath, h₁, hgrows, hholds, hscan, ?_⟩)
      dsimp only
      rw [hmap, FileM.exec_bind_of_ok _ hx, FileM.exec_pure]

namespace Opening

/-! ### Taking a directory -/

lemma takeLock_ok {lock : FileId} (h : (takeLock dir).exec fs = (.ok lock, fs₁)) :
    ∃ mid, (FileM.openOrCreate (Path.join dir lockName)).exec fs = (.ok lock, mid) ∧
      lock ∉ mid.locked ∧ fs₁ = { mid with locked := lock :: mid.locked } := by
  obtain ⟨file, mid, hopen, h⟩ := FileM.exec_bind_ok h
  obtain ⟨s, mid', hget, h⟩ := FileM.exec_bind_ok h
  cases hget
  rw [FileStore.lock?] at h
  split at h
  next s hlock =>
    split at hlock
    next => cases hlock
    next hfree =>
      cases hlock
      cases h
      exact ⟨mid, FileM.exec_mapError_ok hopen, hfree, rfl⟩
  next => cases h

lemma takeLock_error (hfs : fs.WellFormed) (h : (takeLock dir).exec fs = (.error e, fs₁)) :
    fs₁.WellFormed ∧ fs.Grows fs₁ := by
  rcases FileM.exec_bind_error h with h | ⟨file, mid, hopen, h⟩
  · obtain ⟨e', h, -⟩ := FileM.exec_mapError_error h
    obtain rfl := FileM.openOrCreate_error h
    exact ⟨hfs, .refl _⟩
  · obtain ⟨hmid, hgrows, -⟩ := FileM.openOrCreate_ok hfs (FileM.exec_mapError_ok hopen)
    rcases FileM.exec_bind_error h with h | ⟨s, mid', hget, h⟩
    · cases h
    · cases hget
      split at h
      next => cases h
      next =>
        cases h
        exact ⟨hmid, hgrows⟩

lemma start_eq (dir : String) (c : ServiceConfig) :
    start dir c = (do
      let dataDir ← (FileM.ask (·.canonical dir)).mapError (.directoryNotResolved dir)
      let lock ← takeLock dataDir
      tryCatch (do
        let log ← (c.log dataDir).open.mapError .storage
        pure (⟨c, dataDir, lock, log⟩ : Opening)) fun e => do
          release lock
          throw e) := by
  rw [start]
  congr 1
  funext dataDir
  congr 1
  funext lock fs
  simp only [bind, ExceptT.bind, ExceptT.bindCont, ExceptT.mk, ExceptT.run, StateT.bind, tryCatch,
    tryCatchThe, MonadExceptOf.tryCatch, ExceptT.tryCatch, FileM.mapError, Functor.map, StateT.map]
  rcases LogConfig.open (c.log dataDir) fs with ⟨_ | _, _⟩ <;> rfl

/-- What it takes to take a directory. -/
lemma start_ok (h : (start dir c).exec fs = (.ok o, fs₁)) :
    o.config = c ∧ fs.canonical dir = .ok o.dataDir ∧
      ∃ mid, (takeLock o.dataDir).exec fs = (.ok o.lock, mid) ∧
        (c.log o.dataDir).open.exec mid = (.ok o.log, fs₁) := by
  rw [start_eq] at h
  obtain ⟨dataDir, mid₁, hask, hrest⟩ := FileM.exec_bind_ok h
  obtain ⟨hcanonical, rfl⟩ := FileM.exec_ask_ok (FileM.exec_mapError_ok hask)
  obtain ⟨lock, mid, hlock, htry⟩ := FileM.exec_bind_ok hrest
  rw [FileM.exec_tryCatch] at htry
  split at htry
  next o' mid' hx =>
    cases htry
    obtain ⟨log, mid'', hopen, hpure⟩ := FileM.exec_bind_ok hx
    cases hpure
    exact ⟨rfl, hcanonical, mid, hlock, FileM.exec_mapError_ok hopen⟩
  next => cases htry

/-- A directory that cannot be taken is left as it was. -/
lemma start_error (hfs : fs.WellFormed) (h : (start dir c).exec fs = (.error e, fs₁)) :
    fs₁.WellFormed ∧ fs.Grows fs₁ := by
  rw [start_eq] at h
  rcases FileM.exec_bind_error h with hask | ⟨dataDir, mid₁, hask, hrest⟩
  · obtain ⟨e', hask, -⟩ := FileM.exec_mapError_error hask
    obtain rfl := FileM.exec_ask_error hask
    exact ⟨hfs, .refl _⟩
  obtain ⟨-, rfl⟩ := FileM.exec_ask_ok (FileM.exec_mapError_ok hask)
  rcases FileM.exec_bind_error hrest with hlock | ⟨lock, mid, hlock, htry⟩
  · exact takeLock_error hfs hlock
  obtain ⟨mid', hopen, -, rfl⟩ := takeLock_ok hlock
  obtain ⟨hmid, hgrows, -⟩ := FileM.openOrCreate_ok hfs hopen
  rw [FileM.exec_tryCatch] at htry
  split at htry
  next => cases htry
  next e' fs₂ hx =>
    cases htry
    rcases FileM.exec_bind_error hx with hx | ⟨log, mid'', -, hx⟩
    · -- the log failed, and the lock is given back
      obtain ⟨e'', hx, -⟩ := FileM.exec_mapError_error hx
      have hlocked : FileStore.WellFormed { mid' with locked := lock :: mid'.locked } :=
        hmid.congr rfl le_rfl
      rcases (c.log dataDir).open_cases hlocked with
        ⟨_, fs₃, hx', h₃, hgrows'⟩ | ⟨-, hx'⟩ | ⟨-, _, _, _, _, -, -, -, -, -, hx'⟩
      · obtain rfl := congrArg Prod.snd (hx.symm.trans hx')
        refine ⟨h₃.congr rfl le_rfl, hgrows.trans ⟨hgrows'.names, hgrows'.files, hgrows'.content,
          hgrows'.size, ?_⟩⟩
        change fs₂.locked.erase lock = mid'.locked
        rw [hgrows'.locked, List.erase_cons_head]
      · cases hx.symm.trans hx'
      · cases hx.symm.trans hx'
    · cases hx

/-- What is there when a directory was taken. In `mid` a torn log is not cut off yet. -/
structure Taken (fs : FileStore) (dir : String) (c : ServiceConfig) (o : Opening)
    (mid fs₁ : FileStore) : Prop where
  config : o.config = c
  canonical : fs.canonical dir = .ok o.dataDir
  free : o.lock ∉ fs.locked
  wellFormed : mid.WellFormed
  grows : { fs with locked := o.lock :: fs.locked }.Grows mid
  lock : mid.openFile (Path.join o.dataDir lockName) = .ok o.lock
  origin : fs.openFile (Path.join o.dataDir lockName) = .ok o.lock ∨
    mid.Owned (Path.join o.dataDir lockName) o.lock []
  log : c.durability = .cache ∧ o.log = .memory [] ∧ fs₁ = mid ∨
    c.durability = .always ∧ ∃ log bs s, o.log = .file log ∧
      log.path = Path.join o.dataDir c.logFile ∧ log.Holds mid bs ∧ LogScan.scan bs = .ok s ∧
      fs₁ = mid.setContent log.file (bs.take s.validLength)

lemma exists_taken (hfs : fs.WellFormed) (h : (start dir c).exec fs = (.ok o, fs₁)) :
    ∃ mid, Taken fs dir c o mid fs₁ := by
  obtain ⟨hconfig, hcanonical, locked, hlock, hopen⟩ := start_ok h
  obtain ⟨mid, hcreate, hfree, rfl⟩ := takeLock_ok hlock
  obtain ⟨hmid, hgrows, hfile, horigin⟩ := FileM.openOrCreate_ok hfs hcreate
  have hlocked : FileStore.WellFormed { mid with locked := o.lock :: mid.locked } :=
    hmid.congr rfl le_rfl
  have hgrows' : { fs with locked := o.lock :: fs.locked }.Grows
      { mid with locked := o.lock :: mid.locked } :=
    ⟨hgrows.names, hgrows.files, hgrows.content, hgrows.size,
      congrArg (o.lock :: ·) hgrows.locked⟩
  have hfile' : FileStore.openFile { mid with locked := o.lock :: mid.locked }
      (Path.join o.dataDir lockName) = .ok o.lock := (mid.openFile_locked _ _).trans hfile
  have horigin' : fs.openFile (Path.join o.dataDir lockName) = .ok o.lock ∨
      FileStore.Owned { mid with locked := o.lock :: mid.locked } (Path.join o.dataDir lockName)
        o.lock [] :=
    horigin.imp_right fun hnew => hnew.2.congr rfl rfl
  rcases (c.log o.dataDir).open_cases hlocked with
    ⟨_, _, hx, -⟩ | ⟨hmode, hx⟩ | ⟨hmode, log, fs₂, bs, s, hpath, h₂, hgrows₂, hholds, hscan, hx⟩
  · cases hopen.symm.trans hx
  · obtain ⟨hlog, hstore⟩ := Prod.mk.inj (hopen.symm.trans hx)
    refine ⟨_, hconfig, hcanonical, hgrows.locked ▸ hfree, hlocked, hgrows', hfile', horigin',
      .inl ⟨?_, Except.ok.inj hlog, hstore⟩⟩
    cases hd : c.durability with
    | cache => rfl
    | always =>
      rw [ServiceConfig.log, hd] at hmode
      cases hmode
  · obtain ⟨hlog, hstore⟩ := Prod.mk.inj (hopen.symm.trans hx)
    cases hd : c.durability with
    | cache =>
      rw [ServiceConfig.log, hd] at hmode
      cases hmode
    | always =>
      rw [ServiceConfig.log, hd] at hpath
      exact ⟨fs₂, hconfig, hcanonical, hgrows.locked ▸ hfree, h₂, hgrows'.trans hgrows₂,
        hgrows₂.openFile hlocked hfile',
        horigin'.imp_right fun hnew => hnew.grows hlocked hgrows₂,
        .inr ⟨hd, log, bs, s, Except.ok.inj hlog, hpath, hholds, hscan, hstore⟩⟩

end Opening

/-! ### Logs that can be read -/

namespace Log

/-- A log is there and holds certain records. -/
def Sound (fs : FileStore) (rs : List LogRecord) : Log → Prop
  | memory qs | recording qs _ => qs = rs
  | file log => ∃ bs, log.Holds fs bs ∧ LogScan.found? bs = some rs

variable {l l' : Log} {rs qs kept : List LogRecord} {log : FileLog} {bs : Bytes} {s : LogScan}

lemma Sound.readAll (h : l.Sound fs rs) : l.readAll.exec fs = (.ok rs, fs) := by
  cases l with
  | memory qs =>
    obtain rfl : qs = rs := h
    rfl
  | recording qs failing =>
    obtain rfl : qs = rs := h
    rfl
  | file log =>
    obtain ⟨bs, hholds, hfound⟩ := h
    have hread := hholds.readAll_iff.mpr hfound
    have hstore : (log.readAll.exec fs).2 = fs := by
      rw [FileLog.readAll, FileLog.scan, FileM.exec_bind, hholds.exec_scanPath]
      cases LogScan.scan bs <;> rfl
    exact Prod.ext hread hstore

/-- A log that is opened holds what a scan finds. -/
lemma sound_opened (h : log.Holds fs bs) (hscan : LogScan.scan bs = .ok s) :
    (file log).Sound (fs.setContent log.file (bs.take s.validLength)) s.records := by
  have htake := (LogScan.reads_of_scanFrom hscan).take
  rw [Nat.sub_zero] at htake
  refine ⟨_, h.setContent _, ?_⟩
  rw [LogScan.found?, LogScan.scan, htake]
  rfl

/-- A log that is replaced holds the new records. If it cannot be, nothing changes. -/
lemma Sound.replace_cases (h : l.Sound fs rs) (hfs : fs.WellFormed) (qs : List LogRecord) :
    (∃ e, (l.replace qs).exec fs = (.error e, fs)) ∨
    ∃ l' fs', (l.replace qs).exec fs = (.ok l', fs') ∧ fs'.WellFormed ∧
      ((∀ q ∈ qs, Frame.Fits q) → l'.Sound fs' qs) := by
  cases l with
  | memory ps => exact .inr ⟨_, fs, rfl, hfs, fun _ => rfl⟩
  | recording ps failing => exact .inr ⟨_, fs, rfl, hfs, fun _ => rfl⟩
  | file log =>
    obtain ⟨bs, hholds, -⟩ := h
    have hmap : (file log).replace qs = log.replace qs >>= fun l => pure (.file l) := rfl
    rw [hmap]
    rcases hholds.replace_cases hfs qs with ⟨e, -, he⟩ | ⟨id, fs', hx, hholds', hfs'⟩
    · exact .inl ⟨_, FileM.exec_bind_of_error _ he⟩
    · refine .inr ⟨_, fs', FileM.exec_bind_of_ok _ hx, hfs', fun hq =>
        ⟨_, hholds', LogScan.found?_frames hq⟩⟩

end Log

namespace Opening

variable {mid : FileStore} {path : String} {id : FileId} {log : FileLog}

/-- Files keep their names when a directory is taken. -/
lemma Taken.openFile (h : Taken fs dir c o mid fs₁) (hfs : fs.WellFormed)
    (ho : fs.openFile path = .ok id) : fs₁.openFile path = .ok id := by
  have hlocked : FileStore.WellFormed { fs with locked := o.lock :: fs.locked } :=
    hfs.congr rfl le_rfl
  have hmid := h.grows.openFile hlocked ((fs.openFile_locked _ path).trans ho)
  rcases h.log with ⟨-, -, rfl⟩ | ⟨-, log, bs, s, -, -, -, -, rfl⟩
  · exact hmid
  · exact (FileStore.openFile_congr (mid.root_setContent _ _) path).trans hmid

/-- The content of every file but the log stays. -/
lemma Taken.content (h : Taken fs dir c o mid fs₁) (hid : id < fs.contents.size)
    (hlog : ∀ log, o.log = .file log → log.file ≠ id) : fs₁.content id = fs.content id := by
  have hmid : mid.content id = fs.content id := h.grows.content id hid
  rcases h.log with ⟨-, -, rfl⟩ | ⟨-, log, bs, s, hfile, -, -, -, rfl⟩
  · exact hmid
  · exact (FileStore.content_setContent_of_ne (hlog log hfile).symm _).trans hmid

end Opening

/-! ### Recovery of the log -/

/-- Whether a log is asked. -/
def Question.isFor (ref : LogRef) : Question → Bool
  | .append log _ | .readAll log | .replace log _ => log == ref
  | _ => false

/-- A log answers what it is asked in a dialogue of recovery. It and the files change by that; nobody
else touches them. -/
inductive Log.Serves (ref : LogRef) : List Exchange → Log → FileStore → Log → FileStore → Prop
  | nil (l : Log) (fs : FileStore) : Serves ref [] l fs l fs
  | aside {x : Exchange} {es : List Exchange} {l l' : Log} {fs fs' : FileStore}
      (hx : x.question.isFor ref = false) (h : Serves ref es l fs l' fs') :
      Serves ref (x :: es) l fs l' fs'
  | readAll {y : Except StorageError (List LogRecord)} {es : List Exchange} {l l' : Log}
      {fs fs₁ fs' : FileStore} (hy : l.readAll.exec fs = (y, fs₁))
      (h : Serves ref es l fs₁ l' fs') :
      Serves ref (⟨.readAll ref, y⟩ :: es) l fs l' fs'
  | replaced {rs : List LogRecord} {es : List Exchange} {l l₁ l' : Log} {fs fs₁ fs' : FileStore}
      (hr : (l.replace rs).exec fs = (.ok l₁, fs₁)) (h : Serves ref es l₁ fs₁ l' fs') :
      Serves ref (⟨.replace ref rs, .ok ()⟩ :: es) l fs l' fs'
  | refused {rs : List LogRecord} {e : StorageError} {es : List Exchange} {l l' : Log}
      {fs fs₁ fs' : FileStore} (hr : (l.replace rs).exec fs = (.error e, fs₁))
      (h : Serves ref es l fs₁ l' fs') :
      Serves ref (⟨.replace ref rs, .error e⟩ :: es) l fs l' fs'

/-- A log could not replace its records. -/
def Log.Refuses (ref : LogRef) (es : List Exchange) : Prop :=
  ∃ rs e, ⟨.replace ref rs, .error e⟩ ∈ es

section Serves

variable {ref : LogRef} {es es₁ es₂ : List Exchange} {l l' : Log} {fs' : FileStore}

lemma Log.Serves.append_aside (h : Log.Serves ref (es₁ ++ es₂) l fs l' fs')
    (hes : ∀ x ∈ es₁, x.question.isFor ref = false) : Log.Serves ref es₂ l fs l' fs' := by
  induction es₁ with
  | nil => exact h
  | cons x xs ih =>
    rw [List.forall_mem_cons] at hes
    cases h with
    | aside _ h => exact ih h hes.2
    | readAll => simp [Question.isFor] at hes
    | replaced => simp [Question.isFor] at hes
    | refused => simp [Question.isFor] at hes

lemma Log.Serves.of_aside (h : Log.Serves ref es l fs l' fs')
    (hes : ∀ x ∈ es, x.question.isFor ref = false) : l' = l ∧ fs' = fs := by
  rw [← List.append_nil es] at h
  cases h.append_aside hes
  exact ⟨rfl, rfl⟩

lemma Log.Serves.of_readAll {y : Except StorageError (List LogRecord)}
    (h : Log.Serves ref (⟨.readAll ref, y⟩ :: es) l fs l' fs') :
    ∃ fs₁, l.readAll.exec fs = (y, fs₁) ∧ Log.Serves ref es l fs₁ l' fs' := by
  cases h with
  | aside hx => simp [Question.isFor] at hx
  | readAll hy h => exact ⟨_, hy, h⟩

lemma Log.not_refuses_cons {x : Exchange} (hx : ∀ rs e, x ≠ ⟨.replace ref rs, .error e⟩)
    (h : ¬Log.Refuses ref es) : ¬Log.Refuses ref (x :: es) := by
  rintro ⟨rs, e, he⟩
  rcases List.mem_cons.mp he with rfl | he
  · exact hx rs e rfl
  · exact h ⟨rs, e, he⟩

lemma Log.not_refuses_append (hes : ∀ x ∈ es₁, x.question.isFor ref = false)
    (h : ¬Log.Refuses ref es₂) : ¬Log.Refuses ref (es₁ ++ es₂) := by
  rintro ⟨rs, e, he⟩
  rcases List.mem_append.mp he with he | he
  · simpa [Question.isFor] using hes _ he
  · exact h ⟨rs, e, he⟩

end Serves

namespace Recovery

variable {g : Registry} {ref : LogRef} {rs kept folded : List LogRecord} {st st' : RecoveryStats}
  {es : List Exchange} {l l' : Log} {fs' : FileStore} {x : Except StorageError RecoveryStats}

lemma isFor_delivery (ref : LogRef) (a : AdapterKey) (tx : TxId) (d : Decision)
    (x : Except ResourceError Unit) : (delivery a tx d x).question.isFor ref = false := by
  cases d <;> rfl

/-- Recovery does not ask the log while it tells outcomes. -/
lemma RedrivesAll.aside (h : RedrivesAll g rs st es kept st') (ref : LogRef) :
    ∀ x ∈ es, x.question.isFor ref = false := by
  intro x hx
  obtain ⟨r, -, a, y, rfl⟩ := h.told x hx
  exact isFor_delivery ..

lemma SettlesAll.aside (h : SettlesAll folded g st es st') (ref : LogRef) :
    ∀ x ∈ es, x.question.isFor ref = false := by
  intro x hx
  rcases h.told x hx with ⟨a, y, rfl⟩ | ⟨a, tx, y, rfl, -⟩
  · rfl
  · exact isFor_delivery ..

/-- What a pass does to the files: nothing, unless it replaces the records of the log. -/
lemma Recovers.serves_cases (h : Recovers ref g es x) (hs : Log.Serves ref es l fs l' fs') :
    (∃ e, l.readAll.exec fs = (.error e, fs') ∧ x = .error e) ∨
    (∃ rs st, l.readAll.exec fs = (.ok rs, fs') ∧ x = .ok st ∧ l' = l ∧ ¬Log.Refuses ref es) ∨
    ∃ rs kept st es₁ fs₁, l.readAll.exec fs = (.ok rs, fs₁) ∧ kept ≠ rs ∧
      RedrivesAll g (unresolved (LogRecord.fold rs)) (counted rs) es₁ kept st ∧
      ((∃ e, (l.replace kept).exec fs₁ = (.error e, fs') ∧ x = .error e ∧ Log.Refuses ref es) ∨
      ((l.replace kept).exec fs₁ = (.ok l', fs') ∧ (∃ st, x = .ok st) ∧ ¬Log.Refuses ref es)) := by
  have hnone : ¬Log.Refuses ref [] := by simp [Log.Refuses]
  cases h with
  | unreadable e =>
    obtain ⟨fs₁, hread, hs⟩ := hs.of_readAll
    obtain ⟨rfl, rfl⟩ := hs.of_aside (List.forall_mem_nil _)
    exact .inl ⟨e, hread, rfl⟩
  | @unchanged rs st st' es es' h h' =>
    obtain ⟨fs₁, hread, hs⟩ := hs.of_readAll
    obtain ⟨rfl, rfl⟩ := (hs.append_aside (h.aside ref)).of_aside (h'.aside ref)
    have hrest := Log.not_refuses_append (h'.aside ref) hnone
    rw [List.append_nil] at hrest
    exact .inr (.inl ⟨rs, st', hread, rfl, rfl,
      Log.not_refuses_cons nofun (Log.not_refuses_append (h.aside ref) hrest)⟩)
  | @refused rs kept st es e hk h =>
    obtain ⟨fs₁, hread, hs⟩ := hs.of_readAll
    cases hs.append_aside (h.aside ref) with
    | aside hx => simp [Question.isFor] at hx
    | refused hr hs =>
      obtain ⟨rfl, rfl⟩ := hs.of_aside (List.forall_mem_nil _)
      exact .inr (.inr ⟨rs, kept, st, es, fs₁, hread, hk, h, .inl ⟨e, hr, rfl, kept, e, by simp⟩⟩)
  | @replaced rs kept st st' es es' hk h h' =>
    obtain ⟨fs₁, hread, hs⟩ := hs.of_readAll
    cases hs.append_aside (h.aside ref) with
    | aside hx => simp [Question.isFor] at hx
    | replaced hr hs =>
      obtain ⟨rfl, rfl⟩ := hs.of_aside (h'.aside ref)
      have hrest := Log.not_refuses_append (h'.aside ref) hnone
      rw [List.append_nil] at hrest
      exact .inr (.inr ⟨rs, kept, st, es, fs₁, hread, hk, h, .inr ⟨hr, ⟨st', rfl⟩,
        Log.not_refuses_cons nofun (Log.not_refuses_append (h.aside ref)
          (Log.not_refuses_cons nofun hrest))⟩⟩)

end Recovery

namespace Opening

/-! ### A service -/

/-- A service is opened: it takes its directory and then recovers the log. If it cannot, it lets go
of the lock. -/
inductive Attempt (taking : FileM SystemFault Opening) (g : Registry) (ref : LogRef)
    (fs : FileStore) :
    List Exchange → Except TxError (Opening × RecoveryStats) → FileStore → Prop
  | untaken {e : SystemFault} {fs' : FileStore} (h : taking.exec fs = (.error e, fs')) :
    Attempt taking g ref fs [] (.error (.system e)) fs'
  | unrecovered {o : Opening} {fs₁ fs' : FileStore} {es : List Exchange} {e : StorageError}
      {l : Log} (h : taking.exec fs = (.ok o, fs₁))
      (hr : (Recovery.recover ref g).Says es (.error e)) (hs : Log.Serves ref es o.log fs₁ l fs') :
    Attempt taking g ref fs es (.error e.toTxError) (fs'.unlock o.lock)
  | opened {o : Opening} {fs₁ fs' : FileStore} {es : List Exchange} {st : RecoveryStats}
      {l : Log} (h : taking.exec fs = (.ok o, fs₁))
      (hr : (Recovery.recover ref g).Says es (.ok st)) (hs : Log.Serves ref es o.log fs₁ l fs') :
    Attempt taking g ref fs es (.ok (o, st)) fs'

end Opening

end TwoPhaseCommit
