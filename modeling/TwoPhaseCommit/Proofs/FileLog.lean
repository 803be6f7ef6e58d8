import TwoPhaseCommit.Log.File
import TwoPhaseCommit.Proofs.Paths
import TwoPhaseCommit.Proofs.Scan

/-!
# Appends after a failure

An append that fails leaves in the file what has been written of its frame, which is not cut off
before the log is opened again. The next append starts behind it. Its record is found only if both
parts together happen to be a frame of it.
-/

namespace TwoPhaseCommit.FileLog

open LogScan

variable {log log₂ : FileLog} {fs fs₁ fs₂ : FileStore} {bs : Bytes} {r r₂ : LogRecord}
  {rs : List LogRecord} {f : FileM.WriteFault} {e : StorageError} {s : LogScan} {k : Nat}

/-! ### The content of a log -/

/-- The file of an open log has its name, lies in a directory that is there, and has a certain
content. -/
structure Holds (log : FileLog) (fs : FileStore) (bs : Bytes) : Prop where
  directory : ∀ dir, Path.parent? log.path = some dir → dir = "" ∨ fs.isDirectory dir = true
  openFile : fs.openFile log.path = .ok log.file
  lt_size : log.file < fs.contents.size
  content : fs.content log.file = bs

lemma Holds.congr (h : log.Holds fs bs) (hpath : log₂.path = log.path)
    (hfile : log₂.file = log.file) : log₂.Holds fs bs := by
  obtain ⟨hdirectory, hopen, hsize, hcontent⟩ := h
  constructor <;> rw [hfile] at * <;> rw [hpath] at * <;> assumption

lemma Holds.setContent (h : log.Holds fs bs) (new : Bytes) :
    log.Holds (fs.setContent log.file new) new where
  directory dir hdir := by
    rw [FileStore.isDirectory_congr (fs.root_setContent log.file new)]
    exact h.directory dir hdir
  openFile := by
    rw [FileStore.openFile_congr (fs.root_setContent log.file new)]
    exact h.openFile
  lt_size := by
    simpa [FileStore.setContent] using h.lt_size
  content := FileStore.content_setContent h.lt_size new

lemma Holds.appendContent (h : log.Holds fs bs) (new : Bytes) :
    log.Holds (fs.appendContent log.file new) (bs ++ new) := by
  rw [FileStore.appendContent, h.content]
  exact h.setContent (bs ++ new)

lemma exec_append_none :
    (log.append r none).exec fs =
      (.ok { log with size := log.size + (Frame.encode r).length },
        fs.appendContent log.file (Frame.encode r)) := rfl

lemma exec_append_some :
    (log.append r (some f)).exec fs =
      (.error (.io f.error), fs.appendContent log.file ((Frame.encode r).take f.written)) := rfl

/-- An append adds a frame. -/
lemma Holds.append (h : log.Holds fs bs) (happend : (log.append r none).exec fs = (.ok log₂, fs₂)) :
    log₂.path = log.path ∧ log₂.Holds fs₂ (bs ++ Frame.encode r) := by
  rw [exec_append_none] at happend
  cases happend
  exact ⟨rfl, (h.appendContent (Frame.encode r)).congr rfl rfl⟩

/-- An append that fails adds the beginning of a frame. -/
lemma Holds.append_fault (h : log.Holds fs bs)
    (happend : (log.append r (some f)).exec fs = (.error e, fs₁)) :
    log.Holds fs₁ (bs ++ (Frame.encode r).take f.written) := by
  rw [exec_append_some] at happend
  cases happend
  exact h.appendContent _

/-! ### Reading a log -/

lemma exec_io_of_ok {α : Type} {x : FileM IoError α} {a : α} (h : x.exec fs = (.ok a, fs₁)) :
    (io x).exec fs = (.ok a, fs₁) := by
  rw [io, FileM.exec_mapError, h]
  rfl

lemma exec_io_of_error {α : Type} {x : FileM IoError α} {e : IoError}
    (h : x.exec fs = (.error e, fs₁)) : (io x).exec fs = (.error (.io e), fs₁) := by
  rw [io, FileM.exec_mapError, h]
  rfl

lemma Holds.exec_scanPath (h : log.Holds fs bs) :
    (scanPath log.path).exec fs = (LogScan.scan bs, fs) := by
  have hread : fs.read log.path = .ok bs := by
    rw [FileStore.read, h.openFile, ← h.content]
    rfl
  rw [scanPath, FileM.exec_bind_of_ok _ (exec_io_of_ok (FileM.exec_ask_of_ok hread)),
    FileM.exec_ask]

lemma Holds.readAll_iff (h : log.Holds fs bs) :
    (log.readAll.exec fs).1 = .ok rs ↔ found? bs = some rs := by
  rw [readAll, scan, FileM.exec_bind, h.exec_scanPath, found?]
  cases LogScan.scan bs <;> simp [Except.toOption]

/-- Opening a log whose file is there starts with a scan. -/
lemma Holds.exec_open (h : log.Holds fs bs) :
    (FileLog.open log.path).exec fs = (do
      let scan ← scanPath log.path
      if scan.tornBytes > 0 then
        modify fun fs : FileStore =>
          fs.setContent log.file ((fs.content log.file).take scan.validLength)
      let file ← io (FileM.ask (·.openFile log.path))
      return (⟨log.path, file, scan.validLength, scan.tornBytes⟩ : FileLog)).exec fs := by
  rw [FileLog.open]
  cases hparent : Path.parent? log.path with
  | none =>
    dsimp only
    rw [FileM.exec_bind_of_ok _ (exec_io_of_ok (FileM.exec_openOrCreate h.openFile))]
  | some dir =>
    dsimp only
    rw [FileM.exec_bind_of_ok _ (exec_io_of_ok (FileM.exec_makeTree (h.directory dir hparent))),
      FileM.exec_bind_of_ok _ (exec_io_of_ok (FileM.exec_openOrCreate h.openFile))]

lemma Holds.open_of_error (h : log.Holds fs bs) (hscan : LogScan.scan bs = .error e) :
    (FileLog.open log.path).exec fs = (.error e, fs) := by
  rw [h.exec_open, FileM.exec_bind_of_error _ (hscan ▸ h.exec_scanPath)]

/-- Opening a log in which nothing is torn changes nothing. -/
lemma Holds.open_of_untorn (h : log.Holds fs bs) (hscan : LogScan.scan bs = .ok s)
    (hs : s.tornBytes = 0) :
    (FileLog.open log.path).exec fs = (.ok ⟨log.path, log.file, s.validLength, s.tornBytes⟩, fs) := by
  rw [h.exec_open, FileM.exec_bind_of_ok _ (hscan ▸ h.exec_scanPath), if_neg (by omega),
    FileM.exec_bind_of_ok _ (exec_io_of_ok (FileM.exec_ask_of_ok h.openFile)), FileM.exec_pure]

/-- Opening a log cuts off what a scan calls torn. -/
lemma Holds.exec_open_of_ok (h : log.Holds fs bs) (hscan : LogScan.scan bs = .ok s) :
    (FileLog.open log.path).exec fs = (.ok ⟨log.path, log.file, s.validLength, s.tornBytes⟩,
      fs.setContent log.file (bs.take s.validLength)) := by
  by_cases htorn : s.tornBytes = 0
  · obtain ⟨-, hlength⟩ := (reads_of_scanFrom hscan).length_eq
    rw [h.open_of_untorn hscan htorn, List.take_of_length_le (by omega), ← h.content,
      FileStore.setContent_content]
  · have hcut := h.setContent (bs.take s.validLength)
    rw [h.exec_open, FileM.exec_bind_of_ok _ (hscan ▸ h.exec_scanPath), if_pos (by omega),
      FileM.exec_bind_of_ok _ (FileM.exec_modify _), h.content,
      FileM.exec_bind_of_ok _ (exec_io_of_ok (FileM.exec_ask_of_ok hcut.openFile)), FileM.exec_pure]

/-- No name changes when a log is opened. -/
lemma Holds.open_of_ok (h : log.Holds fs bs) (hscan : LogScan.scan bs = .ok s) :
    ∃ log' fs', (FileLog.open log.path).exec fs = (.ok log', fs') ∧
      log'.Holds fs' (bs.take s.validLength) ∧
      log' = ⟨log.path, log.file, s.validLength, s.tornBytes⟩ ∧
      fs'.root = fs.root ∧ fs'.contents.size = fs.contents.size :=
  ⟨_, _, h.exec_open_of_ok hscan, (h.setContent _).congr rfl rfl, rfl, rfl,
    Array.size_setIfInBounds ..⟩

/-- Opening a log and reading it gives what a scan finds. -/
lemma Holds.reopen_iff (h : log.Holds fs bs) :
    ((FileLog.open log.path >>= readAll).exec fs).1 = .ok rs ↔ found? bs = some rs := by
  cases hscan : LogScan.scan bs with
  | error e =>
    rw [FileM.exec_bind_of_error _ (h.open_of_error hscan), found?, hscan]
    simp [Except.toOption]
  | ok s =>
    obtain ⟨log', fs', hopen, hnew, -⟩ := h.open_of_ok hscan
    have htake := (reads_of_scanFrom hscan).take
    rw [Nat.sub_zero] at htake
    rw [FileM.exec_bind_of_ok _ hopen, hnew.readAll_iff, found?, found?, hscan,
      LogScan.scan, htake]
    rfl

/-! ### A store for a log -/

/-- A store with nothing but a log. -/
def shelf (bs : Bytes) : FileStore :=
  { root := .directory [("log", .file 0)], contents := #[bs] }

/-- The log of a shelf. -/
def shelved (bs : Bytes) : FileLog := ⟨"log", 0, bs.length, 0⟩

lemma isEntry_log : FileStore.IsEntry "log" :=
  ⟨⟨by decide, by decide⟩, by decide, by decide, by decide, by decide⟩

lemma holds_shelf (bs : Bytes) : (shelved bs).Holds (shelf bs) bs where
  directory dir hdir := by
    rw [shelved, isEntry_log.parent?_here] at hdir
    exact .inl (Option.some.inj hdir).symm
  openFile := FileStore.openFile_of_child ((shelf bs).locate_here isEntry_log) rfl
  lt_size := Nat.zero_lt_one
  content := rfl

/-! ### The append after one that failed -/

/-- What was begun and the first bytes of a record's frame happen to be a frame of that record, and
what is left passes for a torn append. -/
def Completes (begun : Bytes) (r : LogRecord) : Prop :=
  ∃ j ≤ (Frame.encode r).length, Frame.IsFrame r (begun ++ (Frame.encode r).take j) ∧
    isTorn ((Frame.encode r).drop j) = true ∧ ∀ q, ¬Frame.IsFrame q ((Frame.encode r).drop j)

lemma found?_begun_iff (hr : Frame.Fits r) (hk : k < (Frame.encode r).length) (r₂ : LogRecord) :
    found? ((Frame.encode r).take k ++ Frame.encode r₂) = some [r₂] ↔
      Completes ((Frame.encode r).take k) r₂ := by
  have hnot : ∀ q n, Frame.decode ((Frame.encode r).take k) 0 ≠ .ok (q, n) := by
    intro q n hdecode
    obtain ⟨needed, hbegun⟩ := Frame.decode_take hr hk 0
    rw [hdecode] at hbegun
    cases hbegun
  simp only [found?_append_iff hnot, found?_eq_nil_iff, Completes]

/-- A later frame is not found if the length field of what was begun claims more than there is. -/
lemma found?_begun_of_short (hr : Frame.Fits r) (hfour : 4 ≤ k)
    (hshort : k + (Frame.encode r₂).length < (Frame.encode r).length) :
    found? ((Frame.encode r).take k ++ Frame.encode r₂) = some [] := by
  obtain ⟨hmin, hsize⟩ := (Frame.isFrame_encode hr).whole
  have hlength : ((Frame.encode r).take k ++ Frame.encode r₂).length =
      k + (Frame.encode r₂).length := by
    rw [List.length_append, List.length_take_of_le (by omega)]
  have hfield : ((Frame.encode r).take k ++ Frame.encode r₂).take 4 = (Frame.encode r).take 4 := by
    rw [List.take_append_of_le_length (by rw [List.length_take_of_le (by omega)]; exact hfour),
      List.take_take, Nat.min_eq_left hfour]
  exact found?_of_beyond (by omega) (by rwa [hfield]) (by rw [hfield]; omega)

/-- The record of an append after one that failed is found, while the log is open and after it is
opened again, exactly if its frame completes what the other has left. -/
theorem append_after_failure_iff (hlog : log.Holds fs (frames rs)) (hrs : ∀ q ∈ rs, Frame.Fits q)
    (hr : Frame.Fits r) (hcut : f.written < (Frame.encode r).length)
    (hfail : (log.append r (some f)).exec fs = (.error e, fs₁))
    (hok : (log.append r₂ none).exec fs₁ = (.ok log₂, fs₂)) :
    ((log₂.readAll.exec fs₂).1 = .ok (rs ++ [r₂]) ↔
      Completes ((Frame.encode r).take f.written) r₂) ∧
    (((FileLog.open log.path >>= readAll).exec fs₂).1 = .ok (rs ++ [r₂]) ↔
      Completes ((Frame.encode r).take f.written) r₂) ∧
    (found? (frames rs ++ (Frame.encode r).take f.written ++ Frame.encode r₂) = some (rs ++ [r₂]) ↔
      Completes ((Frame.encode r).take f.written) r₂) := by
  obtain ⟨hpath, hlog₂⟩ := (hlog.append_fault hfail).append hok
  have hfound : found? (frames rs ++ (Frame.encode r).take f.written ++ Frame.encode r₂) =
      some (rs ++ [r₂]) ↔ Completes ((Frame.encode r).take f.written) r₂ := by
    rw [List.append_assoc, found?_frames_append_iff hrs, found?_begun_iff hr hcut]
  exact ⟨hlog₂.readAll_iff.trans hfound, hpath ▸ hlog₂.reopen_iff.trans hfound, hfound⟩

/-- A record that is shorter than `accented`. -/
def unnamed : LogRecord := ⟨.mint 0 1, .rolledBack, [], 8⟩

/-- A disk that has room for one length field. -/
def fullDisk : FileM.WriteFault := ⟨4, .described "No space left on device (os error 28)"⟩

lemma found?_begun_unnamed :
    found? ((Frame.encode Frame.accented).take fullDisk.written ++ Frame.encode unnamed) =
      some [] :=
  found?_begun_of_short (by decide +kernel) (by decide) (by decide +kernel)

theorem append_after_failure_iff_begun : ∃ fs₁ log₂ fs₂,
    ((shelved []).append Frame.accented (some fullDisk)).exec (shelf []) =
      (.error (.io fullDisk.error), fs₁) ∧
    ((shelved []).append unnamed none).exec fs₁ = (.ok log₂, fs₂) ∧
    (log₂.readAll.exec fs₂).1 ≠ .ok [unnamed] ∧
    ((FileLog.open "log" >>= readAll).exec fs₂).1 ≠ .ok [unnamed] := by
  have hfits : Frame.Fits Frame.accented := by decide +kernel
  have hcut : fullDisk.written < (Frame.encode Frame.accented).length := by decide +kernel
  obtain ⟨hread, hreopen, -⟩ := append_after_failure_iff (holds_shelf []) (List.forall_mem_nil _)
    hfits hcut exec_append_some (exec_append_none (r := unnamed))
  have hnot : ¬Completes ((Frame.encode Frame.accented).take fullDisk.written) unnamed := by
    rw [← found?_begun_iff hfits hcut, found?_begun_unnamed]
    simp
  exact ⟨_, _, _, exec_append_some, exec_append_none, mt hread.mp hnot, mt hreopen.mp hnot⟩

/-- A log does not recover from an append that failed. -/
theorem failed_append_not_undone :
    ¬∀ (log log₂ : FileLog) (fs fs₁ fs₂ : FileStore) (rs : List LogRecord) (r r₂ : LogRecord)
      (f : FileM.WriteFault) (e : StorageError),
      log.Holds fs (frames rs) → (∀ q ∈ rs, Frame.Fits q) → Frame.Fits r → Frame.Fits r₂ →
      0 < f.written → f.written < (Frame.encode r).length →
      (log.append r (some f)).exec fs = (.error e, fs₁) →
      (log.append r₂ none).exec fs₁ = (.ok log₂, fs₂) →
      (log₂.readAll.exec fs₂).1 = .ok (rs ++ [r₂]) ∧
      ((FileLog.open log.path >>= readAll).exec fs₂).1 = .ok (rs ++ [r₂]) ∧
      found? (frames rs ++ (Frame.encode r).take f.written ++ Frame.encode r₂) =
        some (rs ++ [r₂]) := by
  intro h
  obtain ⟨-, -, hfound⟩ := h (shelved []) _ (shelf []) _ _ [] Frame.accented unnamed fullDisk _
    (holds_shelf []) (List.forall_mem_nil _) (by decide +kernel) (by decide +kernel) (by decide)
    (by decide +kernel) exec_append_some exec_append_none
  rw [frames_nil, List.nil_append, found?_begun_unnamed] at hfound
  simp at hfound

end TwoPhaseCommit.FileLog
