import Mathlib.Data.List.Flatten
import TwoPhaseCommit.Proofs.Documents
import TwoPhaseCommit.Proofs.Settings
import TwoPhaseCommit.Proofs.Statistics

/-!
# Settings that are picked up again

A service that is opened with new settings writes them to its directory, so that the next service
finds them there. They are read as they were written, unless the log was opened in the same file: it
takes them for a torn append and cuts them off (`Opening.picked_up_iff`).
-/

namespace TwoPhaseCommit

variable {fs fs' fs₁ fs₂ : FileStore} {dir : String} {c : ServiceConfig} {o : Opening}
  {rs kept : List LogRecord} {bs : Bytes} {g : Registry} {ref : LogRef} {es : List Exchange}
  {st st' : RecoveryStats}

/-! ### Records that recovery keeps -/

lemma LogScan.fits_of_found? (h : LogScan.found? bs = some rs) : ∀ r ∈ rs, Frame.Fits r := by
  induction rs generalizing bs with
  | nil => simp
  | cons r rs ih =>
    obtain ⟨n, -, hframe, hrest⟩ := LogScan.found?_eq_some_cons_iff.mp h
    exact List.forall_mem_cons.mpr ⟨hframe.fits, ih hrest⟩

/-- Where no record is found nothing is whole. -/
lemma LogScan.validLength_of_records {s : LogScan} (h : LogScan.scan bs = .ok s)
    (hs : s.records = []) : s.validLength = 0 := by
  cases LogScan.reads_of_scanFrom h with
  | stop => rfl
  | frame => cases hs

lemma LogRecord.mem_of_mem_fold {r : LogRecord} (h : r ∈ fold rs) : r ∈ rs :=
  (List.mem_filter.mp (List.mem_of_getLast? (latest?_of_mem_fold h))).1

namespace Recovery

variable {r : LogRecord} {ids rest : List ResourceId}

lemma Redrives.sublist (h : Redrives g r ids st es rest st') : rest.Sublist ids := by
  induction h with
  | nil => exact .slnil
  | unknown _ _ ih => exact ih.cons_cons _
  | confirmed _ _ _ ih => exact ih.cons _
  | failed _ _ _ ih => exact ih.cons_cons _

/-- With fewer participants a record does not get longer. -/
lemma fits_remaining (hr : Frame.Fits r) (h : rest.Sublist r.pending) (now : UInt64) :
    Frame.Fits (remaining r rest now) := by
  rw [remaining]
  split
  · exact hr
  · have hnames := (h.flatMap Payload.name).length_le
    simp only [Frame.Fits, Payload.encode, LogRecord.withPending, List.length_append,
      Bytes.length_ofNat] at hr ⊢
    omega

lemma RedrivesAll.fits (h : RedrivesAll g rs st es kept st') (hrs : ∀ r ∈ rs, Frame.Fits r) :
    ∀ q ∈ kept, Frame.Fits q := by
  induction h with
  | nil => simp
  | resolved _ _ ih => exact ih (List.forall_mem_cons.mp hrs).2
  | kept now _ h _ ih =>
    rw [List.forall_mem_cons] at hrs ⊢
    exact ⟨fits_remaining hrs.1 h.sublist now, ih hrs.2⟩

end Recovery

/-! ### Logs that are opened again -/

lemma FileStore.stat_empty (fs : FileStore) : fs.stat "" = .error .notFound := by
  have happroach : fs.approach "" = .error .notFound := by
    rw [approach, if_neg (by simp [String.contains_char_eq]), if_pos rfl]
  rw [stat, locate, happroach]
  rfl

namespace LogConfig

variable {lc : LogConfig} {log : FileLog}

lemma exec_open_file (hv : lc.validate fs = .ok ()) (hmode : lc.mode = .always)
    (hopen : (FileLog.open lc.path).exec fs = (.ok log, fs')) :
    lc.open.exec fs = (.ok (.file log), fs') := by
  rw [LogConfig.open, FileM.exec_bind_of_ok _ (FileM.exec_mapError_of_ok
    (FileM.exec_ask_of_ok hv)), hmode]
  exact FileM.exec_bind_of_ok _ hopen

/-- A log that is there is opened, without its torn end. -/
lemma exec_open_of_holds {s : LogScan} (hholds : log.Holds fs bs)
    (hscan : LogScan.scan bs = .ok s) (hmode : lc.mode = .always) (hpath : log.path = lc.path) :
    lc.open.exec fs = (.ok (.file ⟨log.path, log.file, s.validLength, s.tornBytes⟩),
      fs.setContent log.file (bs.take s.validLength)) := by
  have hvalidate : lc.validate fs = .ok () := by
    have hne : lc.path ≠ "" := by
      intro hempty
      have hstat := FileStore.stat_of_openFile hholds.openFile
      rw [hpath, hempty, FileStore.stat_empty] at hstat
      cases hstat
    have hfile : fs.isDirectory lc.path = false := by
      rw [← hpath, FileStore.isDirectory, FileStore.stat_of_openFile hholds.openFile]
    rw [LogConfig.validate, hmode, if_pos (by decide), if_neg hne, hfile]
    rfl
  exact exec_open_file hvalidate hmode (hpath ▸ hholds.exec_open_of_ok hscan)

end LogConfig

namespace Log

variable {l l' : Log} {lc : LogConfig}

/-- A log that was opened with certain settings. -/
def Follows (lc : LogConfig) : Log → Prop
  | memory _ => lc.mode = .cache
  | recording .. => False
  | file log => lc.mode = .always ∧ log.path = lc.path

/-- A log that can be read can be opened again. -/
lemma Follows.exec_open (h : l.Follows lc) (hs : l.Sound fs rs) :
    ∃ l' fs' rs', lc.open.exec fs = (.ok l', fs') ∧ l'.Sound fs' rs' ∧ (rs = [] → rs' = []) := by
  cases l with
  | memory qs =>
    have hmode : lc.mode = .cache := h
    have hvalidate : lc.validate fs = .ok () := by
      rw [LogConfig.validate, hmode]
      rfl
    refine ⟨.memory [], fs, [], ?_, rfl, fun _ => rfl⟩
    rw [LogConfig.open, FileM.exec_bind_of_ok _ (FileM.exec_mapError_of_ok
      (FileM.exec_ask_of_ok hvalidate)), hmode]
    rfl
  | recording qs failing => exact h.elim
  | file log =>
    obtain ⟨hmode, hpath⟩ := h
    obtain ⟨bs, hholds, hfound⟩ := hs
    obtain ⟨s, hscan, rfl⟩ := LogScan.found?_eq_some_iff.mp hfound
    obtain ⟨bs', hholds', hfound'⟩ := Log.sound_opened hholds hscan
    exact ⟨_, _, s.records, LogConfig.exec_open_of_holds hholds hscan hmode hpath,
      ⟨bs', hholds'.congr rfl rfl, hfound'⟩, id⟩

end Log

namespace Opening

variable {id : FileId} {log log₁ : FileLog} {settings : Bytes} {l l' : Log} {lc : LogConfig}

/-! ### A directory that a service has -/

lemma getLast?_configPath (dir : String) : (configPath dir).toList.getLast? = some 'l' :=
  Path.getLast?_join (by decide) dir

lemma getLast?_lock (dir : String) : (Path.join dir lockName).toList.getLast? = some 'k' :=
  Path.getLast?_join (by decide) dir

/-- A service has a directory, in which the settings and the lock are files of their own. -/
structure Installed (fs : FileStore) (dir : String) (o : Opening) (id : FileId)
    (settings : Bytes) : Prop where
  wellFormed : fs.WellFormed
  isDirectory : fs.isDirectory dir = true
  canonical : fs.canonical dir = .ok o.dataDir
  settings : fs.Owned (configPath dir) id settings
  lock : fs.Owned (Path.join o.dataDir lockName) o.lock []
  locked : ∃ ids, fs.locked = o.lock :: ids ∧ o.lock ∉ ids

/-- A log whose torn end is cut off leaves the settings, unless it is in their place. -/
lemma Installed.cut (h : Installed fs dir o id settings) (hl : log.Holds fs bs) (n : Nat) :
    Installed (fs.setContent log.file (bs.take n)) dir o id
      (if log.file = id then settings.take n else settings) where
  wellFormed := h.wellFormed.setContent log.file _
  isDirectory := (FileStore.isDirectory_congr (fs.root_setContent log.file _) dir).trans h.isDirectory
  canonical := by
    have hkeeps : fs.Keeps (fs.setContent log.file (bs.take n)) := fun l hl => hl
    rw [FileStore.canonical_keeps h.wellFormed hkeeps h.isDirectory, h.canonical]
  settings := by
    split
    next heq =>
      subst heq
      rw [← hl.content, h.settings.content]
      exact h.settings.write hl.lt_size _
    next hne => exact h.settings.setContent hne _
  lock := by
    by_cases heq : log.file = o.lock
    · rw [← hl.content, heq, h.lock.content, List.take_nil]
      exact h.lock.write (heq ▸ hl.lt_size) _
    · exact h.lock.setContent heq _
  locked := h.locked

/-- A log that is replaced leaves the settings and the lock. -/
lemma Installed.replace (h : Installed fs dir o id settings) (hl : log.Holds fs bs)
    (hr : (log.replace rs).exec fs = (.ok log₁, fs₁)) (hfs : fs₁.WellFormed) (hid : log.file ≠ id)
    (hlock : log.file ≠ o.lock) : Installed fs₁ dir o id settings ∧ log₁.file ≠ id := by
  obtain ⟨hkeeps, hlocked⟩ := hl.replace_keeps h.wellFormed hr
  obtain ⟨hsettings, hne⟩ := hl.replace_owned h.wellFormed hr h.settings (getLast?_configPath dir)
    (by decide) (by decide) hid
  obtain ⟨hkept, -⟩ := hl.replace_owned h.wellFormed hr h.lock (getLast?_lock o.dataDir)
    (by decide) (by decide) hlock
  exact ⟨⟨hfs, FileStore.isDirectory_keeps h.wellFormed.root hkeeps h.isDirectory,
    (FileStore.canonical_keeps h.wellFormed hkeeps h.isDirectory).trans h.canonical, hsettings,
    hkept, hlocked ▸ h.locked⟩, hne⟩

/-- Recovery leaves the settings and the lock. It touches the log only if there are records in it,
and there are none in the settings. -/
lemma Installed.recover (h : Installed fs dir o id settings)
    (hsettings : ∀ rs, LogScan.found? settings = some rs → rs = []) (hf : l.Follows lc)
    (hl : l.Sound fs rs) (hr : (Recovery.recover ref g).Says es (.ok st))
    (hs : Log.Serves ref es l fs l' fs') :
    Installed fs' dir o id settings ∧ l'.Follows lc ∧
      (∃ rs', l'.Sound fs' rs' ∧ (rs = [] → rs' = [])) ∧
      (l' = l ∨ rs ≠ [] ∧ ∀ log, l' = .file log → log.file ≠ id) := by
  rcases (Recovery.says_recover hr).serves_cases hs with
    ⟨e, -, hx⟩ | ⟨rs', st', hread, -, rfl, -⟩ |
    ⟨rs', kept, st', es₁, fs₂, hread, hkept, hredrives, ⟨e, -, hx, -⟩ | ⟨hreplace, -, -⟩⟩
  · cases hx
  · rw [hl.readAll] at hread
    cases hread
    exact ⟨h, hf, ⟨rs, hl, fun h => h⟩, .inl rfl⟩
  · cases hx
  rw [hl.readAll] at hread
  cases hread
  -- something is kept, so that there was a record to read
  have hrs : rs ≠ [] := by
    rintro rfl
    cases hredrives
    exact hkept rfl
  cases l with
  | memory qs =>
    cases hreplace
    exact ⟨h, hf, ⟨kept, rfl, fun h => absurd h hrs⟩, .inr ⟨hrs, nofun⟩⟩
  | recording qs failing => exact hf.elim
  | file log =>
    obtain ⟨bs, hholds, hfound⟩ := hl
    obtain ⟨log₁, fs₁, hlog, hpure⟩ := FileM.exec_bind_ok hreplace
    cases hpure
    -- the file that is replaced holds a record, which neither the settings nor the lock do
    have hid : log.file ≠ id := by
      rintro rfl
      rw [← hholds.content, h.settings.content] at hfound
      exact hrs (hsettings rs hfound)
    have hlock : log.file ≠ o.lock := by
      intro heq
      rw [← hholds.content, heq, h.lock.content, LogScan.found?_nil] at hfound
      exact hrs (Option.some.inj hfound).symm
    rcases hholds.replace_cases h.wellFormed kept with ⟨e, -, he⟩ | ⟨new, fs₂, hx, hholds', hfs₂⟩
    · cases hlog.symm.trans he
    obtain ⟨hnew, rfl⟩ := Prod.mk.inj (hlog.symm.trans hx)
    obtain ⟨hinstalled, hne⟩ := h.replace hholds hlog hfs₂ hid hlock
    have hfits : ∀ q ∈ kept, Frame.Fits q := hredrives.fits fun r hr =>
      LogScan.fits_of_found? hfound r (LogRecord.mem_of_mem_fold (Recovery.mem_unresolved.mp hr).1)
    refine ⟨hinstalled, ?_, ⟨kept, ?_, fun h => absurd h hrs⟩, .inr ⟨hrs, ?_⟩⟩
    · rw [Except.ok.inj hnew]
      exact hf
    · rw [Except.ok.inj hnew]
      exact ⟨_, hholds', LogScan.found?_frames hfits⟩
    · rintro log ⟨⟩
      exact hne

/-! ### The first opening -/

/-- A directory, once it is made, has neither settings nor a lock. -/
structure Fresh (fs : FileStore) (dir : String) : Prop where
  settings (made : FileStore) (id : FileId) (h : (makeDir dir).exec fs = (.ok (), made)) :
    made.openFile (configPath dir) ≠ .ok id
  lock (made : FileStore) (dataDir : String) (id : FileId)
    (h : (makeDir dir).exec fs = (.ok (), made)) (hd : made.canonical dir = .ok dataDir) :
    made.openFile (Path.join dataDir lockName) ≠ .ok id

/-- What it takes to take a directory with new settings. -/
lemma openWith_ok (h : (openWith dir c).exec fs = (.ok o, fs')) :
    c.validate = .ok () ∧ ∃ t made id fs₁, c.text = some t ∧
      (makeDir dir).exec fs = (.ok (), made) ∧
      (FileM.openOrCreate (configPath dir)).exec made = (.ok id, fs₁) ∧
      (start dir c).exec (fs₁.setContent id (Utf8.encode t)) = (.ok o, fs') := by
  obtain ⟨_, _, hvalidate, hrest⟩ := FileM.exec_bind_ok h
  obtain ⟨hv, rfl⟩ := FileM.exec_ask_ok (FileM.exec_mapError_ok hvalidate)
  obtain ⟨_, made, hmake, hrest⟩ := FileM.exec_bind_ok hrest
  obtain ⟨_, _, hwrite, hstart⟩ := FileM.exec_bind_ok hrest
  have hwrite := FileM.exec_mapError_ok hwrite
  rw [ServiceConfig.write] at hwrite
  cases ht : c.text with
  | none =>
    rw [ht] at hwrite
    cases hwrite
  | some t =>
    rw [ht] at hwrite
    obtain ⟨id, written, hcreate, hset⟩ := FileM.exec_bind_ok (FileM.exec_mapError_ok hwrite)
    cases hset
    exact ⟨hv, t, made, id, written, rfl, hmake, hcreate, hstart⟩

/-- The directory of a service that was opened in a fresh one, before the log is cut. -/
lemma Taken.installed {made written mid : FileStore} {id : FileId} {t : String}
    (hfs : fs.WellFormed) (hfresh : Fresh fs dir) (hmake : (makeDir dir).exec fs = (.ok (), made))
    (hcreate : (FileM.openOrCreate (configPath dir)).exec made = (.ok id, written))
    (h : Taken (written.setContent id (Utf8.encode t)) dir c o mid fs₁) :
    Installed mid dir o id (Utf8.encode t) := by
  obtain ⟨hmade, hdir⟩ := FileM.makeTree_ok hfs (FileM.exec_mapError_ok hmake)
  obtain ⟨hwritten, hgrows, hopen, hnew⟩ := FileM.openOrCreate_ok hmade hcreate
  obtain ⟨-, howned⟩ := hnew.resolve_left (hfresh.settings made id hmake)
  let base := written.setContent id (Utf8.encode t)
  let held : FileStore := { base with locked := o.lock :: base.locked }
  have hbase : base.WellFormed := hwritten.setContent id _
  have hheld : held.WellFormed := hbase.congr rfl le_rfl
  have hsettings : held.Owned (configPath dir) id (Utf8.encode t) :=
    (howned.write (hwritten.lt_size hopen) _).congr rfl rfl
  -- the directory of the empty path has no canonical form
  have hdir : made.isDirectory dir = true := by
    refine hdir.resolve_left ?_
    rintro rfl
    have hcanonical := h.canonical
    rw [FileStore.canonical, FileStore.stat_empty] at hcanonical
    cases hcanonical
  have hkeeps : made.Keeps base := hgrows.keeps
  have hheldDir : held.isDirectory dir = true :=
    FileStore.isDirectory_keeps hmade.root (hkeeps.trans fun l hl => hl) hdir
  have hcanonical : made.canonical dir = .ok o.dataDir :=
    (FileStore.canonical_keeps hmade hkeeps hdir).symm.trans h.canonical
  refine ⟨h.wellFormed, h.grows.isDirectory hheld hheldDir, ?_, hsettings.grows hheld h.grows, ?_,
    base.locked, h.grows.locked, h.free⟩
  · exact (FileStore.canonical_keeps hmade ((hkeeps.trans fun l hl => hl).trans h.grows.keeps)
      hdir).trans hcanonical
  · -- a lock that is found beside the settings would have been there before them
    refine h.origin.resolve_left fun hlock => ?_
    have hlock : written.openFile (Path.join o.dataDir lockName) = .ok o.lock :=
      (FileStore.openFile_congr (written.root_setContent id _) _).symm.trans hlock
    exact hfresh.lock made o.dataDir o.lock hmake hcanonical
      (FileM.openFile_of_openOrCreate hmade hcreate (getLast?_configPath dir)
        (getLast?_lock o.dataDir) (by decide) (by decide) (by decide) hlock)

/-- The records of the log are counted first. -/
lemma recordsScanned_of_serves (hr : (Recovery.recover ref g).Says es (.ok st))
    (hs : Log.Serves ref es l fs l' fs') (hl : l.Sound fs rs) : st.recordsScanned = rs.length := by
  cases Recovery.says_recover hr with
  | unchanged h h' =>
    obtain ⟨fs₁, hread, -⟩ := hs.of_readAll
    cases hl.readAll.symm.trans hread
    rw [h'.stats, h.stats]
    rfl
  | replaced _ h h' =>
    obtain ⟨fs₁, hread, -⟩ := hs.of_readAll
    cases hl.readAll.symm.trans hread
    rw [h'.stats, h.stats]
    rfl

/-- A service that was opened in a fresh directory has it. Its log is not in the place of the
settings, or these are cut off. -/
lemma installed_of_attempt (hfs : fs.WellFormed) (hfresh : Fresh fs dir)
    (h : Attempt (openWith dir c) g ref fs es (.ok (o, st)) fs₁) :
    c.validate = .ok () ∧ ∃ (t : String) (id : FileId) (l : Log) (rs : List LogRecord)
      (settings : Bytes), c.text = some t ∧ Installed fs₁ dir o id settings ∧
      l.Follows (c.log o.dataDir) ∧ l.Sound fs₁ rs ∧ (st.recordsScanned = 0 → rs = []) ∧
      (settings = Utf8.encode t ∧ (∀ log, l = .file log → log.file ≠ id) ∨
        settings = [] ∧ ∃ log, l = .file log ∧ log.file = id) := by
  cases h with
  | @opened o fs₂ fs₁ es st l hx hr hs =>
    obtain ⟨hv, t, made, id, written, ht, hmake, hcreate, hstart⟩ := openWith_ok hx
    obtain ⟨hmade, -⟩ := FileM.makeTree_ok hfs (FileM.exec_mapError_ok hmake)
    obtain ⟨hwritten, -⟩ := FileM.openOrCreate_ok hmade hcreate
    obtain ⟨mid, htaken⟩ := exists_taken (hwritten.setContent id (Utf8.encode t)) hstart
    have hinstalled := htaken.installed hfs hfresh hmake hcreate
    -- no record can be read in a text of settings
    have hnone : ∀ rs, LogScan.found? (Utf8.encode t) = some rs → rs = [] := fun rs =>
      ServiceConfig.eq_nil_of_found? ht
    refine ⟨hv, t, id, l, ?_⟩
    rcases htaken.log with ⟨hmode, hlog, rfl⟩ | ⟨hmode, log, bs, s, hlog, hpath, hholds, hscan, rfl⟩
    · rw [hlog] at hs
      have hfollows : (Log.memory []).Follows (c.log o.dataDir) := by
        change (c.log o.dataDir).mode = .cache
        rw [ServiceConfig.log, hmode]
        rfl
      obtain ⟨hinstalled, hf, ⟨rs, hsound, hrs⟩, hl⟩ := hinstalled.recover hnone hfollows rfl hr hs
      refine ⟨rs, _, ht, hinstalled, hf, hsound, fun _ => hrs rfl, .inl ⟨rfl, ?_⟩⟩
      rcases hl with rfl | ⟨-, hl⟩
      · rintro log ⟨⟩
      · exact hl
    · rw [hlog] at hs
      have hfollows : (Log.file log).Follows (c.log o.dataDir) := by
        rw [ServiceConfig.log, hmode]
        exact ⟨rfl, hpath⟩
      have hsound := Log.sound_opened hholds hscan
      have hcut := hinstalled.cut hholds s.validLength
      by_cases heq : log.file = id
      · -- the settings are a torn append, of which nothing is left
        have hscan' : LogScan.scan (Utf8.encode t) = .ok s := by
          rw [← hscan, ← hholds.content, heq, hinstalled.settings.content]
        have hrecords := hnone _ (LogScan.found?_eq_some_iff.mpr ⟨s, hscan', rfl⟩)
        have hempty : ∀ rs, LogScan.found? [] = some rs → rs = [] := fun rs hfound =>
          (Option.some.inj (LogScan.found?_nil.symm.trans hfound)).symm
        rw [if_pos heq, LogScan.validLength_of_records hscan hrecords, List.take_zero] at hcut
        rw [LogScan.validLength_of_records hscan hrecords] at hs hsound
        obtain ⟨hinstalled, hf, ⟨rs, hsound, hrs⟩, hl⟩ := hcut.recover hempty hfollows hsound hr hs
        obtain rfl := hl.resolve_right fun hl => hl.1 hrecords
        exact ⟨rs, [], ht, hinstalled, hf, hsound, fun _ => hrs hrecords, .inr ⟨rfl, log, rfl, heq⟩⟩
      · rw [if_neg heq] at hcut
        have hscanned := recordsScanned_of_serves hr hs hsound
        obtain ⟨hinstalled, hf, ⟨rs, hsound, hrs⟩, hl⟩ := hcut.recover hnone hfollows hsound hr hs
        refine ⟨rs, _, ht, hinstalled, hf, hsound, fun hzero => ?_, .inl ⟨rfl, ?_⟩⟩
        · exact hrs (List.eq_nil_of_length_eq_zero (hscanned.symm.trans hzero))
        rcases hl with rfl | ⟨-, hl⟩
        · rintro log ⟨⟩
          exact heq
        · exact hl

/-! ### The second opening -/

/-- A lock that was let go is taken again. -/
lemma Installed.exec_takeLock (h : Installed fs dir o id settings) :
    (takeLock o.dataDir).exec (fs.unlock o.lock) = (.ok o.lock, fs) := by
  obtain ⟨ids, hlocked, hfree⟩ := h.locked
  have hrest : fs.locked.erase o.lock = ids := by rw [hlocked, List.erase_cons_head]
  have hopen : (fs.unlock o.lock).openFile (Path.join o.dataDir lockName) = .ok o.lock :=
    (fs.openFile_locked _ _).trans h.lock.openFile
  have hlock : (fs.unlock o.lock).lock? o.lock = some fs := by
    rw [FileStore.lock?, FileStore.unlock, hrest, if_neg hfree, ← hlocked]
  rw [takeLock, FileM.exec_bind_of_ok _ (FileM.exec_mapError_of_ok (FileM.exec_openOrCreate hopen)),
    FileM.exec_bind_of_ok _ FileM.exec_get, hlock]
  rfl

/-- A directory that is let go is taken with settings under which its log can be opened. -/
lemma Installed.exec_start (h : Installed fs dir o id settings)
    (hopen : (c.log o.dataDir).open.exec fs = (.ok l, fs')) :
    (start dir c).exec (fs.unlock o.lock) = (.ok ⟨c, o.dataDir, o.lock, l⟩, fs') := by
  have hkeeps : fs.Keeps (fs.unlock o.lock) := fun l hl => hl
  have hcanonical : (fs.unlock o.lock).canonical dir = .ok o.dataDir :=
    (FileStore.canonical_keeps h.wellFormed hkeeps h.isDirectory).trans h.canonical
  rw [start_eq, FileM.exec_bind_of_ok _ (FileM.exec_mapError_of_ok (FileM.exec_ask_of_ok hcanonical)),
    FileM.exec_bind_of_ok _ h.exec_takeLock, FileM.exec_tryCatch,
    FileM.exec_bind_of_ok _ (FileM.exec_mapError_of_ok hopen)]
  rfl

lemma exec_read {path t : String} (h : fs.read path = .ok (Utf8.encode t))
    (ht : ServiceConfig.ofText? t = some c) (hv : c.validate = .ok ()) :
    (ServiceConfig.read path).exec fs = (.ok c, fs) := by
  have htext : fs.readText path = .ok t := by
    rw [FileStore.readText, h]
    simp [bind, Except.bind, Utf8.decode?_encode]
    rfl
  rw [ServiceConfig.read, FileM.exec_bind_of_ok _ (FileM.exec_mapError_of_ok
    (FileM.exec_ask_of_ok htext)), ht]
  exact FileM.exec_bind_of_ok _ (FileM.exec_ask_of_ok hv)

/-- A directory that is let go is taken with the settings it has. -/
lemma Installed.exec_open {t : String} (h : Installed fs dir o id (Utf8.encode t))
    (ht : ServiceConfig.ofText? t = some c) (hv : c.validate = .ok ()) :
    (Opening.open dir).exec (fs.unlock o.lock) = (start dir c).exec (fs.unlock o.lock) := by
  have hopen : (fs.unlock o.lock).openFile (configPath dir) = .ok id :=
    (fs.openFile_locked _ _).trans h.settings.openFile
  have hkeeps : fs.Keeps (fs.unlock o.lock) := fun l hl => hl
  have hdir := FileStore.isDirectory_keeps h.wellFormed.root hkeeps h.isDirectory
  have hread : (fs.unlock o.lock).read (configPath dir) = .ok (Utf8.encode t) :=
    FileStore.read_eq_ok_iff.mpr ⟨id, hopen, h.settings.content⟩
  have hdefault : (ServiceConfig.writeDefaultIfMissing (configPath dir)).exec (fs.unlock o.lock) =
      (.ok (), fs.unlock o.lock) := by
    have hpresent : (fs.unlock o.lock).isPresent (configPath dir) = true := by
      rw [FileStore.isPresent, FileStore.stat_of_openFile hopen]
      rfl
    rw [ServiceConfig.writeDefaultIfMissing, FileM.exec_bind_of_ok _ FileM.exec_get, hpresent]
    rfl
  rw [Opening.open, makeDir,
    FileM.exec_bind_of_ok _ (FileM.exec_mapError_of_ok (FileM.exec_makeTree (.inr hdir))),
    FileM.exec_bind_of_ok _ (FileM.exec_mapError_of_ok hdefault),
    FileM.exec_bind_of_ok _ (FileM.exec_mapError_of_ok (exec_read hread ht hv))]

/-- Where a directory can be taken and its log be read, only the log's refusal to be replaced keeps
a service from being opened. -/
lemma Attempt.result_cases {taking : FileM SystemFault Opening}
    {result : Except TxError (Opening × RecoveryStats)} (h : Attempt taking g ref fs es result fs₂)
    (hx : taking.exec fs = (.ok o, fs₁)) (hl : o.log.Sound fs₁ rs) :
    (∃ st, result = .ok (o, st)) ∧ ¬Log.Refuses ref es ∨
      (∃ e, result = .error e) ∧ Log.Refuses ref es ∧ rs ≠ [] := by
  -- the log can be read, so that recovery fails only where it replaces records
  have hcases {x : Except StorageError RecoveryStats} {l' : Log} {fs₃ : FileStore}
      (hr : (Recovery.recover ref g).Says es x) (hs : Log.Serves ref es o.log fs₁ l' fs₃) :
      (∃ st, x = .ok st) ∧ ¬Log.Refuses ref es ∨
        (∃ e, x = .error e) ∧ Log.Refuses ref es ∧ rs ≠ [] := by
    rcases (Recovery.says_recover hr).serves_cases hs with
      ⟨e, hread, -⟩ | ⟨rs', st', -, hx, -, hrefuses⟩ |
      ⟨rs', kept, st', es₁, fs₂, hread, hkept, hredrives,
        ⟨e, -, hx, hrefuses⟩ | ⟨-, hx, hrefuses⟩⟩
    · cases hl.readAll.symm.trans hread
    · exact .inl ⟨⟨st', hx⟩, hrefuses⟩
    · cases hl.readAll.symm.trans hread
      refine .inr ⟨⟨e, hx⟩, hrefuses, ?_⟩
      rintro rfl
      cases hredrives
      exact hkept rfl
    · exact .inl ⟨hx, hrefuses⟩
  cases h with
  | untaken h => cases hx.symm.trans h
  | unrecovered h hr hs =>
    obtain ⟨ho, rfl⟩ := Prod.mk.inj (hx.symm.trans h)
    cases ho
    obtain ⟨⟨st, hx⟩, -⟩ | ⟨-, hrefuses⟩ := hcases hr hs
    · cases hx
    · exact .inr ⟨⟨_, rfl⟩, hrefuses⟩
  | opened h hr hs =>
    obtain ⟨ho, rfl⟩ := Prod.mk.inj (hx.symm.trans h)
    cases ho
    obtain ⟨-, hrefuses⟩ | ⟨⟨e, hx⟩, -⟩ := hcases hr hs
    · exact .inl ⟨⟨_, rfl⟩, hrefuses⟩
    · cases hx

/-- A log is opened in the place of the settings, or it is not. -/
lemma log_file_cases (hf : l.Follows (c.log o.dataDir)) (hl : l.Sound fs rs)
    (hopen : fs.openFile (configPath dir) = .ok id) :
    (c.durability = .cache ∨
      fs.openFile (Path.join o.dataDir c.logFile) ≠ fs.openFile (configPath dir)) ↔
      ∀ log, l = .file log → log.file ≠ id := by
  cases hmode : c.durability with
  | cache =>
    refine iff_of_true (.inl rfl) ?_
    rintro log rfl
    rw [ServiceConfig.log, hmode] at hf
    cases hf.1
  | always =>
    rw [ServiceConfig.log, hmode] at hf
    cases l with
    | memory qs => cases hf
    | recording qs failing => exact hf.elim
    | file log =>
      obtain ⟨bs, hholds, -⟩ := hl
      have hlog := hholds.openFile
      rw [show log.path = Path.join o.dataDir c.logFile from hf.2] at hlog
      simp [hlog, hopen]

/-! ### The root as a data directory -/

/-- A store without files. -/
def vacant : FileStore := .flat [] #[] []

lemma not_openFile_vacant {name : String} (hname : FileStore.IsEntry name) (id : FileId) :
    vacant.openFile (Path.join "/" name) ≠ .ok id := by
  have hplace := FileStore.locate_flat_of_new hname (List.forall_mem_nil _) #[] []
  intro hopen
  obtain ⟨place, hplace', hnode, -⟩ := FileStore.locate_of_stat (FileStore.stat_of_openFile hopen)
  cases hplace.symm.trans hplace'
  cases hnode

lemma wellFormed_vacant : vacant.WellFormed := FileStore.wellFormed_flat (by simp) _

lemma exec_makeDir_root (fs : FileStore) : (makeDir "/").exec fs = (.ok (), fs) :=
  FileM.exec_mapError_of_ok (FileM.exec_makeTree (.inr fs.isDirectory_root))

lemma fresh_vacant : Fresh vacant "/" where
  settings made id h := by
    cases h.symm.trans (exec_makeDir_root vacant)
    exact not_openFile_vacant isEntry_fileName id
  lock made dataDir id h hd := by
    cases h.symm.trans (exec_makeDir_root vacant)
    cases hd.symm.trans vacant.canonical_root
    exact not_openFile_vacant isEntry_lockName id

lemma exec_openWith_vacant {t : String} (hv : c.validate = .ok ()) (ht : c.text = some t)
    (hopen : (c.log "/").open.exec (held (Utf8.encode t)) = (.ok l, fs₁)) :
    (openWith "/" c).exec vacant = (.ok ⟨c, "/", 1, l⟩, fs₁) := by
  have hvalidate : (FileM.mapError SystemFault.config (FileM.ask fun _ => c.validate)).exec vacant =
      (.ok (), vacant) := FileM.exec_mapError_of_ok (FileM.exec_ask_of_ok hv)
  have hwrite : (c.write (configPath "/")).exec vacant =
      (.ok (), .flat [(ServiceConfig.fileName, 0)] #[Utf8.encode t] []) := by
    rw [ServiceConfig.write, ht]
    refine FileM.exec_mapError_of_ok ?_
    rw [FileM.write, configPath, vacant, FileM.exec_bind_of_ok _ (FileStore.exec_openOrCreate_flat
      isEntry_fileName (List.forall_mem_nil _) #[] [])]
    rfl
  have hlock : (takeLock "/").exec (.flat [(ServiceConfig.fileName, 0)] #[Utf8.encode t] []) =
      (.ok 1, held (Utf8.encode t)) := by
    rw [takeLock, FileM.exec_bind_of_ok _ (FileM.exec_mapError_of_ok
      (FileStore.exec_openOrCreate_flat isEntry_lockName
        (by simp [lockName, ServiceConfig.fileName]) #[Utf8.encode t] []))]
    rfl
  -- the steps in turn: check, directory, settings, path, lock, log
  rw [openWith, FileM.exec_bind_of_ok _ hvalidate, FileM.exec_bind_of_ok _ (exec_makeDir_root _),
    FileM.exec_bind_of_ok _ (FileM.exec_mapError_of_ok hwrite), start_eq,
    FileM.exec_bind_of_ok _ (FileM.exec_mapError_of_ok (FileM.exec_ask_of_ok
      (FileStore.canonical_root _))), FileM.exec_bind_of_ok _ hlock, FileM.exec_tryCatch,
    FileM.exec_bind_of_ok _ (FileM.exec_mapError_of_ok hopen)]
  rfl

/-! ### Logs in the root -/

/-- A data directory that a service holds, with a log. -/
def logged (settings : Bytes) : FileStore :=
  .flat [("txcoord.log", 2), (lockName, 1), (ServiceConfig.fileName, 0)] #[settings, [], []] [1]

lemma housed_root {name : String} (hname : FileStore.IsEntry name) (fs : FileStore) :
    FileLog.Housed fs (Path.join "/" name) :=
  FileLog.housed_of_parent (hname.parent?_root hname.ne_dot) (.inr fs.isDirectory_root)

lemma openFile_logged (settings : Bytes) : (logged settings).openFile (configPath "/") = .ok 0 :=
  FileStore.openFile_in_root isEntry_fileName rfl

lemma isEntry_defaultLog : FileStore.IsEntry "txcoord.log" :=
  ⟨⟨by decide, by decide⟩, by decide, by decide, by decide, by decide⟩

lemma holds_logged (settings : Bytes) :
    (⟨Path.join "/" "txcoord.log", 2, 0, 0⟩ : FileLog).Holds (logged settings) [] where
  directory := housed_root isEntry_defaultLog _
  openFile := FileStore.openFile_in_root isEntry_defaultLog rfl
  lt_size := Nat.lt_succ_self 2
  content := rfl

/-- A log is made where none is. -/
lemma exec_open_logged (settings : Bytes) :
    (LogConfig.open ⟨Path.join "/" "txcoord.log", .always⟩).exec (held settings) =
      (.ok (.file ⟨Path.join "/" "txcoord.log", 2, 0, 0⟩), logged settings) := by
  have hnew : ∀ f ∈ [(lockName, 1), (ServiceConfig.fileName, 0)], "txcoord.log" ≠ f.1 := by decide
  have hplace := FileStore.locate_flat_of_new isEntry_defaultLog hnew #[settings, []] [1]
  have hmake := FileStore.exec_openOrCreate_flat isEntry_defaultLog hnew #[settings, []] [1]
  have hvalidate : (⟨Path.join "/" "txcoord.log", .always⟩ : LogConfig).validate (held settings) =
      .ok () := by
    have hfile : (held settings).isDirectory (Path.join "/" "txcoord.log") = false := by
      rw [FileStore.isDirectory, FileStore.stat, held, hplace]
      rfl
    rw [LogConfig.validate, if_pos (by decide),
      if_neg (by simp [isEntry_defaultLog.join_root]), hfile]
    rfl
  refine LogConfig.exec_open_file hvalidate rfl ?_
  exact (FileLog.open_openOrCreate (housed_root isEntry_defaultLog _) hmake
    (FileM.opens_new (wellFormed_held settings) hplace rfl rfl) (wellFormed_held settings)).trans
    ((holds_logged settings).open_of_untorn LogScan.scan_nil rfl)

/-- Settings whose log takes their own place. -/
def displaced : ServiceConfig := { logFile := ServiceConfig.fileName }

lemma holds_held (settings : Bytes) :
    (⟨configPath "/", 0, 0, 0⟩ : FileLog).Holds (held settings) settings where
  directory := housed_root isEntry_fileName _
  openFile := openFile_held settings
  lt_size := Nat.zero_lt_two
  content := rfl

/-- To a log, settings are a torn append. -/
lemma exec_open_displaced {t : String} (ht : displaced.text = some t) :
    ∃ torn, (displaced.log "/").open.exec (held (Utf8.encode t)) =
      (.ok (.file ⟨configPath "/", 0, 0, torn⟩), held []) := by
  obtain ⟨n, hscan⟩ : ∃ n, LogScan.scan (Utf8.encode t) = .ok ⟨[], 0, n⟩ := by
    obtain rfl := Option.some.inj ht
    refine ⟨117, ?_⟩
    decide +kernel
  exact ⟨n, LogConfig.exec_open_of_holds (holds_held _) hscan rfl rfl⟩

/-! ### Recovery of nothing -/

/-- Nobody is told about a log without records if no adapter is known. -/
lemma says_recover_nil (ref : LogRef) :
    (Recovery.recover ref []).Says [⟨.readAll ref, .ok []⟩] (.ok {}) :=
  ⟨fun _ _ => True, { clock := 0 }, { clock := 0 }, Dialogue.ends_ask_iff.mpr
    ⟨{ clock := 0 }, .ok [], [], trivial, rfl, .refl _⟩⟩

lemma Attempt.of_empty {taking : FileM SystemFault Opening}
    (hx : taking.exec fs = (.ok o, fs₁)) (hl : o.log.Sound fs₁ []) (ref : LogRef) :
    Attempt taking [] ref fs [⟨.readAll ref, .ok []⟩] (.ok (o, {})) fs₁ :=
  .opened hx (says_recover_nil ref) (.readAll hl.readAll (.nil ..))

lemma sound_of_holds {log : FileLog} (h : log.Holds fs []) : (Log.file log).Sound fs [] :=
  ⟨[], h, LogScan.found?_nil⟩

/-! ### Settings that come back -/

/-- The settings that a service was opened with in a fresh directory are picked up by the next one
if and only if its log is not opened in their place, and is replaced where recovery asks for it. It
does not ask where the first service found no record. -/
theorem picked_up_iff (hfs : fs.WellFormed) (hfresh : Fresh fs dir)
    (h : Attempt (openWith dir c) g ref fs es (.ok (o, st)) fs₁) (s : System) {g' : Registry}
    {ref' : LogRef} {es' : List Exchange} {result : Except TxError (Opening × RecoveryStats)}
    (h' : Attempt (Opening.open dir) g' ref' ((Service.ofOpening o st ref s).1.drop fs₁) es' result
      fs₂) :
    ((∃ o' st', result = .ok (o', st') ∧ o'.config = c) ↔
      (c.durability = .cache ∨
        fs₁.openFile (Path.join o.dataDir c.logFile) ≠ fs₁.openFile (configPath dir)) ∧
      ¬Log.Refuses ref' es') ∧
    ((c.durability = .cache ∨
        fs₁.openFile (Path.join o.dataDir c.logFile) ≠ fs₁.openFile (configPath dir)) →
      st.recordsScanned = 0 → ¬Log.Refuses ref' es') := by
  obtain ⟨hv, t, id, l, rs, settings, ht, hinstalled, hf, hsound, hscanned, hsettings⟩ :=
    installed_of_attempt hfs hfresh h
  change Attempt (Opening.open dir) g' ref' (fs₁.unlock o.lock) es' result fs₂ at h'
  rw [log_file_cases hf hsound hinstalled.settings.openFile]
  rcases hsettings with ⟨rfl, hother⟩ | ⟨rfl, log, rfl, hplace⟩
  · obtain ⟨l', fs', rs', hopen, hsound', hrs⟩ := hf.exec_open hsound
    have hstart := hinstalled.exec_start hopen
    rw [← hinstalled.exec_open (ServiceConfig.ofText?_text ht) hv] at hstart
    rcases h'.result_cases hstart hsound' with ⟨⟨st', rfl⟩, hrefuses⟩ | ⟨⟨e, rfl⟩, hrefuses, hne⟩
    · exact ⟨iff_of_true ⟨_, st', rfl, rfl⟩ ⟨hother, hrefuses⟩, fun _ _ => hrefuses⟩
    · exact ⟨iff_of_false (by rintro ⟨_, _, ⟨⟩, -⟩) fun hr => hr.2 hrefuses,
        fun _ hzero => absurd (hrs (hscanned hzero)) hne⟩
  · -- nothing is left of the settings, and the next service starts with the defaults
    refine ⟨iff_of_false ?_ fun hr => hr.1 log rfl hplace,
      fun hother => absurd hplace (hother log rfl)⟩
    rintro ⟨o', st', rfl, rfl⟩
    have hempty : Installed fs₁ dir o id (Utf8.encode "") := hinstalled
    have hdefaults : ServiceConfig.ofText? "" = some {} := rfl
    cases h' with
    | opened hx hr hs =>
      rw [hempty.exec_open hdefaults rfl] at hx
      obtain ⟨hconfig, -⟩ := start_ok hx
      obtain ⟨bs, hholds, -⟩ := hsound
      have hlog := hholds.openFile
      rw [hconfig] at hf
      rw [show log.path = Path.join o.dataDir "txcoord.log" from hf.2] at hlog
      have hends : (Path.join o.dataDir "txcoord.log").toList.getLast? = some 'g' :=
        Path.getLast?_join (by decide) o.dataDir
      exact hinstalled.settings.ne hinstalled.wellFormed.root hlog (getLast?_configPath dir) hends
        (by decide) (by decide) (by decide) hplace

/-- Settings with a log of its own are picked up. -/
theorem picked_up_iff_fewer : ∃ t fs₂ o', fewer.text = some t ∧ vacant.WellFormed ∧
    Fresh vacant "/" ∧
    Attempt (openWith "/" fewer) [] 0 vacant [⟨.readAll 0, .ok []⟩]
      (.ok (⟨fewer, "/", 1, .file ⟨Path.join "/" "txcoord.log", 2, 0, 0⟩⟩, {}))
      (logged (Utf8.encode t)) ∧
    Attempt (Opening.open "/") [] 0 ((logged (Utf8.encode t)).unlock 1) [⟨.readAll 0, .ok []⟩]
      (.ok (o', {})) fs₂ ∧ o'.config = fewer := by
  obtain ⟨t, ht⟩ : ∃ t, fewer.text = some t := ⟨_, rfl⟩
  have hlog := sound_of_holds (holds_logged (Utf8.encode t))
  have hfirst := Attempt.of_empty (exec_openWith_vacant rfl ht
    (exec_open_logged (Utf8.encode t))) hlog 0
  have hother : (logged (Utf8.encode t)).openFile (Path.join "/" "txcoord.log") ≠
      (logged (Utf8.encode t)).openFile (configPath "/") := by
    rw [(holds_logged _).openFile, openFile_logged]
    decide
  obtain ⟨hv, t', id, l, rs, settings, ht', hinstalled, hf, hsound, hscanned, hsettings⟩ :=
    installed_of_attempt wellFormed_vacant fresh_vacant hfirst
  obtain rfl := hscanned rfl
  have hplaces := (log_file_cases hf hsound hinstalled.settings.openFile).mp (.inr hother)
  obtain ⟨rfl, -⟩ := hsettings.resolve_right fun ⟨_, log, hl, hplace⟩ => hplaces log hl hplace
  obtain ⟨l', fs₂, rs', hopen, hsound', hrs⟩ := hf.exec_open hsound
  obtain rfl := hrs rfl
  have hsecond := Attempt.of_empty ((hinstalled.exec_open (ServiceConfig.ofText?_text ht') hv).trans
    (hinstalled.exec_start hopen)) hsound' 0
  obtain ⟨hpicked, hrefuses⟩ := picked_up_iff wellFormed_vacant fresh_vacant hfirst { clock := 0 }
    hsecond
  obtain ⟨o', st', heq, hconfig⟩ := hpicked.mpr ⟨.inr hother, hrefuses (.inr hother) rfl⟩
  cases heq
  exact ⟨t, fs₂, _, ht, wellFormed_vacant, fresh_vacant, hfirst, hsecond, hconfig⟩

/-- Not all settings with which a service was opened are picked up. -/
theorem not_picked_up :
    ¬∀ (fs fs₁ fs₂ : FileStore) (dir : String) (c : ServiceConfig) (g g' : Registry)
      (ref ref' : LogRef) (es es' : List Exchange) (o : Opening) (st : RecoveryStats) (s : System)
      (result : Except TxError (Opening × RecoveryStats)),
      fs.WellFormed → Fresh fs dir → Attempt (openWith dir c) g ref fs es (.ok (o, st)) fs₁ →
      Attempt (Opening.open dir) g' ref' ((Service.ofOpening o st ref s).1.drop fs₁) es' result fs₂ →
      ∃ o' st', result = .ok (o', st') ∧ o'.config = c := by
  intro h
  obtain ⟨t, ht⟩ : ∃ t, displaced.text = some t := ⟨_, rfl⟩
  obtain ⟨torn, hopen⟩ := exec_open_displaced ht
  have hlog : (⟨configPath "/", 0, 0, torn⟩ : FileLog).Holds (held []) [] :=
    (holds_held []).congr rfl rfl
  have hfirst := Attempt.of_empty (exec_openWith_vacant rfl ht hopen) (sound_of_holds hlog) 0
  obtain ⟨-, t', id, l, rs, settings, -, hinstalled, hf, hsound, -, hsettings⟩ :=
    installed_of_attempt wellFormed_vacant fresh_vacant hfirst
  have hplace : ¬∀ log, l = .file log → log.file ≠ id := by
    rw [← log_file_cases hf hsound hinstalled.settings.openFile]
    rintro (hcache | hother)
    · cases hcache
    · exact hother rfl
  obtain ⟨rfl, -⟩ := hsettings.resolve_left fun hkept => hplace hkept.2
  -- the next service finds an empty file, and makes a log beside it
  have hempty : Installed (held []) "/" _ id (Utf8.encode "") := hinstalled
  have hsecond := Attempt.of_empty ((hempty.exec_open rfl rfl).trans
    (hempty.exec_start (exec_open_logged []))) (sound_of_holds (holds_logged [])) 0
  obtain ⟨o', st', heq, hconfig⟩ := h _ _ _ _ _ _ _ _ _ _ _ _ _ { clock := 0 } _ wellFormed_vacant
    fresh_vacant hfirst hsecond
  cases heq
  have hnames : "txcoord.log" = "txcoord.toml" := congrArg ServiceConfig.logFile hconfig
  exact absurd hnames (by decide)

end Opening

end TwoPhaseCommit
