import TwoPhaseCommit.Log
import TwoPhaseCommit.Proofs.FileLog

/-!
# The log in a file and the log in memory

Whatever is done with a log that began as a new file, also if the program ends in the middle of an
append, it holds the same records as a log in memory (`Twin.mirrors_memory`). Beside the records its
own count of bytes is right, and so is what it says of a torn append.
-/

namespace TwoPhaseCommit

namespace FileLog

open LogScan

variable {log : FileLog} {fs fs₁ : FileStore} {bs : Bytes} {r : LogRecord} {rs qs : List LogRecord}
  {path : String} {id : FileId} {k : Nat}

/-! ### A new log -/

/-- There is no file of the name, nor is there one when the directory of the name was made. -/
structure Missing (fs : FileStore) (path : String) : Prop where
  now : ∀ id, fs.openFile path ≠ .ok id
  below : ∀ dir fs', Path.parent? path = some dir → (FileM.makeTree dir).exec fs = (.ok (), fs') →
    ∀ id, fs'.openFile path ≠ .ok id

/-- The directory of a name is there, if the name has one. -/
def Housed (fs : FileStore) (path : String) : Prop :=
  ∀ dir, Path.parent? path = some dir → dir = "" ∨ fs.isDirectory dir = true

lemma housed_of_parent {dir : String} (hparent : Path.parent? path = some dir)
    (hd : dir = "" ∨ fs.isDirectory dir = true) : Housed fs path := by
  intro dir' hdir'
  obtain rfl := Option.some.inj (hparent.symm.trans hdir')
  exact hd

/-- To open a log is to make its directory and to open it then. -/
lemma open_makeTree {dir : String} (hdir : Path.parent? path = some dir)
    (hmake : (FileM.makeTree dir).exec fs = (.ok (), fs₁))
    (hd : dir = "" ∨ fs₁.isDirectory dir = true) :
    (FileLog.open path).exec fs = (FileLog.open path).exec fs₁ := by
  rw [FileLog.open, hdir]
  dsimp only
  rw [FileM.exec_bind_of_ok _ (exec_io_of_ok hmake),
    FileM.exec_bind_of_ok _ (exec_io_of_ok (FileM.exec_makeTree hd))]

/-- In a directory that is there, to open a log is to make its file and to open it then. -/
lemma open_openOrCreate (hd : Housed fs path)
    (hmake : (FileM.openOrCreate path).exec fs = (.ok id, fs₁))
    (ho : FileM.Opens fs path id fs₁) (hroot : fs.WellFormed) :
    (FileLog.open path).exec fs = (FileLog.open path).exec fs₁ := by
  have hagain := FileM.exec_openOrCreate ho.openFile
  rw [FileLog.open]
  cases hparent : Path.parent? path with
  | none =>
    dsimp only
    rw [FileM.exec_bind_of_ok _ (exec_io_of_ok hmake),
      FileM.exec_bind_of_ok _ (exec_io_of_ok hagain)]
  | some dir =>
    dsimp only
    have hhere := hd dir hparent
    have hthere := hhere.imp_right (FileStore.isDirectory_keeps hroot.root ho.keeps)
    rw [FileM.exec_bind_of_ok _ (exec_io_of_ok (FileM.exec_makeTree hhere)),
      FileM.exec_bind_of_ok _ (exec_io_of_ok hmake),
      FileM.exec_bind_of_ok _ (exec_io_of_ok (FileM.exec_makeTree hthere)),
      FileM.exec_bind_of_ok _ (exec_io_of_ok hagain)]

/-- What was opened anew is empty. -/
lemma open_new (h : fs.WellFormed) (hd : Housed fs path) (hm : ∀ id, fs.openFile path ≠ .ok id)
    (hopen : (FileLog.open path).exec fs = (.ok log, fs₁)) :
    (∃ id, log = ⟨path, id, 0, 0⟩) ∧ log.Holds fs₁ [] ∧ fs₁.WellFormed := by
  rcases FileM.openOrCreate_cases h path with ⟨e, he⟩ | ⟨id, fs', hmake, ho⟩
  · exfalso
    rw [FileLog.open] at hopen
    cases hparent : Path.parent? path with
    | none =>
      rw [hparent] at hopen
      dsimp only at hopen
      rw [FileM.exec_bind_of_error _ (exec_io_of_error he)] at hopen
      cases hopen
    | some dir =>
      rw [hparent] at hopen
      dsimp only at hopen
      rw [FileM.exec_bind_of_ok _ (exec_io_of_ok (FileM.exec_makeTree (hd dir hparent))),
        FileM.exec_bind_of_error _ (exec_io_of_error he)] at hopen
      cases hopen
  · have hempty : fs'.content id = [] := ho.origin.resolve_left (hm id)
    have hlog : (⟨path, id, 0, 0⟩ : FileLog).Holds fs' [] :=
      ⟨fun dir hdir => (hd dir hdir).imp_right (FileStore.isDirectory_keeps h.root ho.keeps),
        ho.openFile, ho.wellFormed.lt_size ho.openFile, hempty⟩
    obtain ⟨log', fs'', hopen', hholds, rfl, hroot, hsize⟩ := hlog.open_of_ok scan_nil
    rw [open_openOrCreate hd hmake ho h] at hopen
    obtain ⟨⟨⟩, rfl⟩ := Prod.mk.inj (hopen.symm.trans hopen')
    exact ⟨⟨id, rfl⟩, hholds, ho.wellFormed.congr hroot hsize.ge⟩

lemma open_of_missing (h : fs.WellFormed) (hm : Missing fs path)
    (hopen : (FileLog.open path).exec fs = (.ok log, fs₁)) :
    (∃ id, log = ⟨path, id, 0, 0⟩) ∧ log.Holds fs₁ [] ∧ fs₁.WellFormed := by
  cases hparent : Path.parent? path with
  | none => exact open_new h (fun dir hdir => by rw [hparent] at hdir; cases hdir) hm.now hopen
  | some dir =>
    cases hmake : (FileM.makeTree dir).exec fs with
    | mk result fs' =>
      cases result with
      | error e =>
        rw [FileLog.open, hparent] at hopen
        dsimp only at hopen
        rw [FileM.exec_bind_of_error _ (exec_io_of_error hmake)] at hopen
        cases hopen
      | ok u =>
        obtain ⟨h', hd⟩ := FileM.makeTree_ok h hmake
        have hhoused : Housed fs' path := housed_of_parent hparent hd
        rw [open_makeTree hparent hmake hd] at hopen
        exact open_new h' hhoused (hm.below dir fs' hparent hmake) hopen

/-! ### What is done with a log -/

/-- A log takes other records, or there is no file to write them to and nothing changes. -/
lemma Holds.replace_cases (h : log.Holds fs bs) (hfs : fs.WellFormed) (rs : List LogRecord) :
    (∃ e, (FileM.openOrCreate log.temporary).exec fs = (.error e, fs) ∧
      (log.replace rs).exec fs = (.error (.io e), fs)) ∨
    ∃ id fs', (log.replace rs).exec fs =
        (.ok { log with file := id, size := (frames rs).length }, fs') ∧
      ({ log with file := id, size := (frames rs).length } : FileLog).Holds fs' (frames rs) ∧
      fs'.WellFormed := by
  rw [replace]
  rcases FileM.openOrCreate_cases hfs log.temporary with ⟨e, he⟩ | ⟨id, fs₁, hmake, ho⟩
  · have hwrite : (FileM.write log.temporary (frames rs)).exec fs = (.error e, fs) := by
      rw [FileM.write, FileM.exec_bind_of_error _ he]
    exact .inl ⟨e, he, FileM.exec_bind_of_error _ (exec_io_of_error hwrite)⟩
  · right
    let fs₂ := fs₁.setContent id (frames rs)
    have hwrite : (FileM.write log.temporary (frames rs)).exec fs = (.ok (), fs₂) := by
      rw [FileM.write, FileM.exec_bind_of_ok _ hmake]
      rfl
    have hsize : fs₂.contents.size = fs₁.contents.size := Array.size_setIfInBounds ..
    have hkeeps : fs.Keeps fs₂ := ho.keeps
    have hsource : fs₂.openFile log.temporary = .ok id :=
      (FileStore.openFile_congr (fs₁.root_setContent id _) _).trans ho.openFile
    have htarget : fs₂.openFile log.path = .ok log.file :=
      FileStore.openFile_of_stat (FileStore.stat_keeps hfs.root hkeeps (fun l => ho.names l _)
        (FileStore.stat_of_openFile h.openFile))
    have hfs₂ : fs₂.WellFormed := ho.wellFormed.congr rfl hsize.ge
    obtain ⟨fs₃, hrename, hfs₃, hkeeps', hopen, hcontents⟩ := FileM.rename_ok hfs₂ hsource htarget
    have hlt := ho.wellFormed.lt_size ho.openFile
    refine ⟨id, fs₃, ?_, ⟨fun dir hdir => ?_, hopen, ?_, ?_⟩, hfs₃⟩
    · rw [FileM.exec_bind_of_ok _ (exec_io_of_ok hwrite),
        FileM.exec_bind_of_ok _ (exec_io_of_ok hrename),
        FileM.exec_bind_of_ok _ (exec_io_of_ok (FileM.exec_ask_of_ok hopen)), FileM.exec_pure]
    · exact (h.directory dir hdir).imp_right
        (FileStore.isDirectory_keeps hfs.root (hkeeps.trans hkeeps'))
    · rw [hcontents, hsize]
      exact hlt
    · rw [FileStore.content, hcontents]
      exact FileStore.content_setContent hlt _

end FileLog

/-! ### Two logs side by side -/

/-- A log in a file and a log in memory. -/
structure Twin where
  file : FileLog
  memory : Log := .memory []

namespace Twin

/-- What is done with both logs. -/
inductive Event
  | append (r : LogRecord)
  | replace (rs : List LogRecord)
  /-- The log in the file is closed and opened again. -/
  | reopen
  /-- The program ends in the middle of an append, and is started again. -/
  | crash (r : LogRecord) (f : FileM.WriteFault)

/-- What is written can be a frame, and what a crash leaves is not all of one. -/
def Event.Fits : Event → Prop
  | append r => Frame.Fits r
  | replace rs => ∀ r ∈ rs, Frame.Fits r
  | reopen => True
  | crash r f => Frame.Fits r ∧ f.written < (Frame.encode r).length

instance : DecidablePred Event.Fits
  | .append r => inferInstanceAs (Decidable (Frame.Fits r))
  | .replace rs => inferInstanceAs (Decidable (∀ r ∈ rs, Frame.Fits r))
  | .reopen => inferInstanceAs (Decidable True)
  | .crash r f => inferInstanceAs (Decidable (Frame.Fits r ∧ f.written < (Frame.encode r).length))

/-- How many bytes of an append the last opening has found, where it was `k` so far. -/
def Event.torn (k : Nat) : Event → Nat
  | append _ | replace _ => k
  | reopen => 0
  | crash _ f => f.written

/-- Both logs are replaced, or neither is. The log in memory does not know of what a crash has
undone. -/
def step (t : Twin) : Event → FileM StorageError Twin
  | .append r => do return { t with file := ← t.file.append r none, memory := ← t.memory.append r }
  | .replace rs =>
    tryCatch (do return { t with file := ← t.file.replace rs, memory := ← t.memory.replace rs })
      fun _ => return t
  | .reopen => do return { t with file := ← FileLog.open t.file.path }
  | .crash r f => do
    tryCatch (discard (t.file.append r (some f))) fun _ => return
    return { t with file := ← FileLog.open t.file.path }

def run (t : Twin) : List Event → FileM StorageError Twin
  | [] => return t
  | e :: es => do (← t.step e).run es

open LogScan

variable {t : Twin} {fs : FileStore} {rs : List LogRecord} {path : String} {k : Nat}

/-- Both logs hold the same records. -/
structure Agrees (t : Twin) (path : String) (fs : FileStore) (rs : List LogRecord) (k : Nat) :
    Prop where
  path : t.file.path = path
  memory : t.memory = .memory rs
  file : t.file.Holds fs (frames rs)
  fits : ∀ r ∈ rs, Frame.Fits r
  size : t.file.size = (frames rs).length
  torn : t.file.tornAtOpen = k
  wellFormed : fs.WellFormed

lemma scan_frames (h : ∀ r ∈ rs, Frame.Fits r) :
    scan (frames rs) = .ok ⟨rs, (frames rs).length, 0⟩ := by
  have hscan := scan_frames_append h []
  rw [List.append_nil, scanFrom] at hscan
  rw [hscan, Except.map, List.append_nil]

/-- A log is opened whose file ends in what a crash has left. -/
lemma Agrees.open (h : t.Agrees path fs rs k) {rest : Bytes} {k' : Nat} {fs₁ : FileStore}
    (hfile : t.file.Holds fs₁ (frames rs ++ rest)) (hfs : fs₁.WellFormed)
    (hscan : scan (frames rs ++ rest) = .ok ⟨rs, (frames rs).length, k'⟩) :
    ∃ log fs', (FileLog.open t.file.path).exec fs₁ = (.ok log, fs') ∧
      { t with file := log }.Agrees path fs' rs k' := by
  obtain ⟨log, fs', hopen, hholds, rfl, hroot, hsize⟩ := hfile.open_of_ok hscan
  dsimp only at hholds
  rw [List.take_left] at hholds
  exact ⟨_, fs', hopen, h.path, h.memory, hholds, h.fits, rfl, rfl, hfs.congr hroot hsize.ge⟩

/-- Whatever is done, both logs hold the same records again. -/
lemma Agrees.step (h : t.Agrees path fs rs k) {e : Event} (he : e.Fits) :
    ∃ t' fs' rs', (t.step e).exec fs = (.ok t', fs') ∧ t'.Agrees path fs' rs' (e.torn k) := by
  have happend : ∀ bs, (fs.appendContent t.file.file bs).WellFormed := fun bs =>
    h.wellFormed.congr rfl (Array.size_setIfInBounds ..).ge
  cases e with
  | append r =>
    refine ⟨⟨{ t.file with size := t.file.size + (Frame.encode r).length }, .memory (rs ++ [r])⟩,
      _, rs ++ [r], ?_, h.path, rfl, ?_, ?_, ?_, h.torn, happend (Frame.encode r)⟩
    · rw [Twin.step, FileM.exec_bind_of_ok _ FileLog.exec_append_none, h.memory]
      rfl
    · rw [frames_append, frames_cons, frames_nil, List.append_nil]
      exact (h.file.appendContent (Frame.encode r)).congr rfl rfl
    · exact List.forall_mem_append.mpr ⟨h.fits, List.forall_mem_singleton.mpr he⟩
    · rw [frames_append, List.length_append, ← h.size, frames_cons, frames_nil, List.append_nil]
  | replace qs =>
    rw [Twin.step, FileM.exec_tryCatch]
    rcases h.file.replace_cases h.wellFormed qs with ⟨e, -, he'⟩ | ⟨id, fs', hreplace, hholds, hfs'⟩
    · rw [FileM.exec_bind_of_error _ he']
      exact ⟨t, fs, rs, rfl, h⟩
    · rw [FileM.exec_bind_of_ok _ hreplace, h.memory]
      exact ⟨_, fs', qs, rfl, h.path, rfl, hholds, he, rfl, h.torn, hfs'⟩
  | reopen =>
    have hfile : t.file.Holds fs (frames rs ++ []) := by
      rw [List.append_nil]
      exact h.file
    have hscan : scan (frames rs ++ []) = .ok ⟨rs, (frames rs).length, 0⟩ := by
      rw [List.append_nil]
      exact scan_frames h.fits
    -- nothing is torn, so that the file is as it was
    obtain ⟨log, fs', hopen, h'⟩ := h.open hfile h.wellFormed hscan
    refine ⟨_, fs', rs, ?_, h'⟩
    rw [Twin.step, FileM.exec_bind_of_ok _ hopen]
    rfl
  | crash r f =>
    obtain ⟨hr, hf⟩ := he
    -- part of a frame is left, which is cut off when the log is opened again
    have hfile := h.file.appendContent ((Frame.encode r).take f.written)
    obtain ⟨log, fs', hopen, h'⟩ :=
      h.open hfile (happend _) (scan_torn (scan_frames h.fits) rfl hr hf)
    refine ⟨_, fs', rs, ?_, h'⟩
    have hlost : (tryCatch (discard (t.file.append r (some f))) fun _ => return () :
        FileM StorageError Unit).exec fs =
          (.ok (), fs.appendContent t.file.file ((Frame.encode r).take f.written)) := by
      rw [FileM.exec_tryCatch, show (discard (t.file.append r (some f)) : FileM StorageError Unit) =
        t.file.append r (some f) >>= fun _ => pure () from rfl,
        FileM.exec_bind_of_error _ FileLog.exec_append_some]
      rfl
    rw [Twin.step, FileM.exec_bind_of_ok _ hlost, FileM.exec_bind_of_ok _ hopen]
    rfl

lemma Agrees.run (h : t.Agrees path fs rs k) {es : List Event} (hes : ∀ e ∈ es, e.Fits) :
    ∃ t' fs' rs', (t.run es).exec fs = (.ok t', fs') ∧
      t'.Agrees path fs' rs' (es.foldl Event.torn k) := by
  induction es generalizing t fs rs k with
  | nil => exact ⟨t, fs, rs, rfl, h⟩
  | cons e es ih =>
    obtain ⟨he, hes⟩ := List.forall_mem_cons.mp hes
    obtain ⟨t₁, fs₁, rs₁, hstep, h₁⟩ := h.step he
    obtain ⟨t', fs', rs', hrun, h'⟩ := ih h₁ hes
    exact ⟨t', fs', rs', by rw [Twin.run, FileM.exec_bind_of_ok _ hstep, hrun], h'⟩

/-- Whatever was done since a log began as a new file, it returns the records of the log in memory,
and counts the bytes of its file, which are those of their frames, and those that a crash has left.
A replacement is given up only where no file can be opened to write it to. -/
theorem mirrors_memory {log : FileLog} {fs₀ fs₁ : FileStore} {es : List Event}
    (hfs : fs₀.WellFormed) (hmissing : FileLog.Missing fs₀ path)
    (hopen : (FileLog.open path).exec fs₀ = (.ok log, fs₁)) (hes : ∀ e ∈ es, e.Fits) :
    ∃ (t : Twin) (fs : FileStore) (rs : List LogRecord) (bytes : Bytes),
      (run { file := log } es).exec fs₁ = (.ok t, fs) ∧
      t.file.readAll.exec fs = (.ok rs, fs) ∧ t.memory.readAll.exec fs = (.ok rs, fs) ∧
      fs.read path = .ok bytes ∧ t.file.size = bytes.length ∧
      t.file.size = (rs.map fun r => (Frame.encode r).length).sum ∧
      t.file.tornAtOpen = es.foldl Event.torn 0 ∧
      ∀ qs e fs', (t.file.replace qs).exec fs = (.error e, fs') →
        ∃ e', e = .io e' ∧ (FileM.openOrCreate t.file.temporary).exec fs = (.error e', fs) := by
  obtain ⟨⟨id, rfl⟩, hholds, hfs₁⟩ := FileLog.open_of_missing hfs hmissing hopen
  have hstart : ({ file := ⟨path, id, 0, 0⟩ } : Twin).Agrees path fs₁ [] 0 :=
    ⟨rfl, rfl, hholds, List.forall_mem_nil _, rfl, rfl, hfs₁⟩
  obtain ⟨t, fs, rs, hrun, h⟩ := hstart.run hes
  refine ⟨t, fs, rs, frames rs, hrun, ?_, ?_, ?_, h.size, ?_, h.torn, fun qs e fs' he => ?_⟩
  · rw [FileLog.readAll, FileLog.scan,
      FileM.exec_bind_of_ok _ (scan_frames h.fits ▸ h.file.exec_scanPath), FileM.exec_pure]
  · rw [h.memory]
    rfl
  · rw [FileStore.read, ← h.path, h.file.openFile, ← h.file.content]
    rfl
  · rw [h.size, frames, List.length_flatMap]
  · rcases h.file.replace_cases h.wellFormed qs with ⟨e', hnone, he'⟩ | ⟨id, fs₂, hok, -⟩
    · rw [he'] at he
      cases he
      exact ⟨e', rfl, hnone⟩
    · rw [hok] at he
      cases he

/-- A full disk cuts off an append, and another one after the log was replaced and opened again. -/
def mishaps : List Event :=
  [.append Frame.accented, .crash FileLog.unnamed FileLog.fullDisk, .append FileLog.unnamed,
    .replace [FileLog.unnamed], .reopen, .crash Frame.accented FileLog.fullDisk]

theorem mirrors_memory_mishaps :
    FileStore.WellFormed {} ∧ FileLog.Missing {} "log" ∧
    (FileLog.open "log").exec {} = (.ok (FileLog.shelved []), FileLog.shelf []) ∧
    (∀ e ∈ mishaps, e.Fits) ∧
    ∃ (t : Twin) (fs : FileStore) (rs : List LogRecord) (bytes : Bytes),
      (run { file := FileLog.shelved [] } mishaps).exec (FileLog.shelf []) = (.ok t, fs) ∧
      t.file.readAll.exec fs = (.ok rs, fs) ∧ t.memory.readAll.exec fs = (.ok rs, fs) ∧
      fs.read "log" = .ok bytes ∧ t.file.size = bytes.length ∧
      t.file.size = (rs.map fun r => (Frame.encode r).length).sum ∧
      t.file.tornAtOpen = 4 ∧
      ∀ qs e fs', (t.file.replace qs).exec fs = (.error e, fs') →
        ∃ e', e = .io e' ∧ (FileM.openOrCreate t.file.temporary).exec fs = (.error e', fs) := by
  have hfs : FileStore.WellFormed {} := ⟨rfl, fun l id hl => by cases l <;> cases hl⟩
  have hplace := FileStore.locate_here {} FileLog.isEntry_log
  have hnone : ∀ id, ({} : FileStore).openFile "log" ≠ .ok id := by
    rw [FileStore.openFile, FileStore.stat, hplace]
    rintro id ⟨⟩
  have hparent : Path.parent? "log" = some "" := FileLog.isEntry_log.parent?_here
  have hmissing : FileLog.Missing {} "log" := by
    refine ⟨hnone, fun dir fs' hdir hmake => ?_⟩
    obtain rfl := Option.some.inj (hparent.symm.trans hdir)
    obtain ⟨-, rfl⟩ := Prod.mk.inj ((FileM.exec_makeTree (.inl rfl)).symm.trans hmake)
    exact hnone
  have hopen : (FileLog.open "log").exec {} = (.ok (FileLog.shelved []), FileLog.shelf []) := by
    have hhoused : FileLog.Housed {} "log" := FileLog.housed_of_parent hparent (.inl rfl)
    rw [FileLog.open_openOrCreate hhoused (FileM.exec_openOrCreate_of_none hplace rfl rfl)
      (FileM.opens_new hfs hplace rfl rfl) hfs]
    exact (FileLog.holds_shelf []).open_of_untorn LogScan.scan_nil rfl
  have hmishaps : ∀ e ∈ mishaps, e.Fits := by decide +kernel
  exact ⟨hfs, hmissing, hopen, hmishaps, mirrors_memory hfs hmissing hopen hmishaps⟩

end Twin

end TwoPhaseCommit
