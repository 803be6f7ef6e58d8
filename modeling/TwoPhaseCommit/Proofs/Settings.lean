import TwoPhaseCommit.Proofs.Opening

/-!
# Settings of an opening that fails

New settings are written before the directory is taken and its log recovered. When one of these
fails they stay, in the place of those that the directory had (`Opening.settings_kept_iff`). Only
settings that are not valid, or too large to be written, leave the old ones.
-/

namespace TwoPhaseCommit

lemma Utf8.encode_append (s t : String) : encode (s ++ t) = encode s ++ encode t := by
  simp [encode]

namespace ServiceConfig

variable {c : ServiceConfig} {t : String}

/-- Settings begin with the name of the first key. -/
lemma encode_text (h : c.text = some t) :
    ∃ rest, Utf8.encode t = [0x64, 0x75, 0x72, 0x61, 0x62] ++ rest := by
  rw [text] at h
  split at h
  next =>
    obtain rfl := Option.some.inj h
    rw [String.join_cons, show "durability = " = "durab" ++ "ility = " from rfl,
      String.append_assoc, Utf8.encode_append, show Utf8.encode "durab" =
        [0x64, 0x75, 0x72, 0x61, 0x62] by decide]
    exact ⟨_, rfl⟩
  next => cases h

/-- No record is found in settings: a `b` stands where the tag of a decision would. -/
lemma eq_nil_of_found? (h : c.text = some t) {rs : List LogRecord}
    (hfound : LogScan.found? (Utf8.encode t) = some rs) : rs = [] := by
  cases rs with
  | nil => rfl
  | cons r rs =>
    obtain ⟨n, hn, ⟨-, junk, hframe⟩, -⟩ := LogScan.found?_eq_some_cons_iff.mp hfound
    obtain ⟨rest, hrest⟩ := encode_text h
    have hbyte := congrArg (·[4]?) hframe
    simp only [hrest, List.append_assoc] at hbyte
    rw [List.getElem?_append_right (by simp), List.getElem?_take] at hbyte
    split at hbyte
    next => cases hd : r.decision <;> simp [hd, Frame.tag] at hbyte
    next => simp at hbyte

end ServiceConfig

namespace Opening

variable {fs fs' : FileStore} {dir : String} {c : ServiceConfig} {g : Registry} {ref : LogRef}
  {es : List Exchange} {e : TxError} {o : Opening} {old bs : Bytes} {id : FileId} {t : String}

/-! ### Writing settings -/

lemma isEntry_fileName : FileStore.IsEntry ServiceConfig.fileName :=
  ⟨⟨by decide, by decide⟩, by decide, by decide, by decide, by decide⟩

/-- Where there are settings, new ones are written in their place, or nothing happens. -/
lemma exec_openWith (hopen : fs.openFile (configPath dir) = .ok id) :
    (openWith dir c).exec fs =
      match c.validate, c.text with
      | .error f, _ => (.error (.config f), fs)
      | .ok (), none => (.error (.config .unserializable), fs)
      | .ok (), some t => (start dir c).exec (fs.setContent id (Utf8.encode t)) := by
  have hdir : (makeDir dir).exec fs = (.ok (), fs) := FileM.exec_mapError_of_ok
    (FileM.exec_makeTree (FileStore.isDirectory_of_join isEntry_fileName.toIsName hopen))
  have hvalidate : (FileM.mapError SystemFault.config (FileM.ask fun _ => c.validate)).exec fs =
      (c.validate.mapError .config, fs) := by
    rw [FileM.exec_mapError, FileM.exec_ask]
  rw [openWith]
  cases hv : c.validate with
  | error f =>
    rw [hv] at hvalidate
    exact FileM.exec_bind_of_error _ hvalidate
  | ok u =>
    rw [hv] at hvalidate
    rw [FileM.exec_bind_of_ok _ hvalidate, FileM.exec_bind_of_ok _ hdir]
    cases ht : c.text with
    | none =>
      refine FileM.exec_bind_of_error _ (FileM.exec_mapError_of_error ?_)
      rw [ServiceConfig.write, ht]
      rfl
    | some t =>
      have hwrite : (FileM.write (configPath dir) (Utf8.encode t)).exec fs =
          (.ok (), fs.setContent id (Utf8.encode t)) := by
        rw [FileM.write, FileM.exec_bind_of_ok _ (FileM.exec_openOrCreate hopen)]
        rfl
      have hsettings : (c.write (configPath dir)).exec fs =
          (.ok (), fs.setContent id (Utf8.encode t)) := by
        rw [ServiceConfig.write, ht]
        exact FileM.exec_mapError_of_ok hwrite
      exact FileM.exec_bind_of_ok _ (FileM.exec_mapError_of_ok hsettings)

/-! ### Failing after that -/

/-- Recovery fails only if the log refuses to replace its records, which changes nothing. -/
lemma files_of_unrecovered {l l' : Log} {rs : List LogRecord} {fs₁ : FileStore} {e : StorageError}
    (hl : l.Sound fs rs) (hfs : fs.WellFormed) (hr : (Recovery.recover ref g).Says es (.error e))
    (hs : Log.Serves ref es l fs l' fs₁) : fs₁ = fs ∧ rs ≠ [] := by
  rcases (Recovery.says_recover hr).serves_cases hs with
    ⟨e', hread, -⟩ | ⟨rs', st, hread, hx, -⟩ |
    ⟨rs', kept, st, es₁, fs₂, hread, hkept, hredrives, ⟨e', hreplace, -⟩ | ⟨-, ⟨st', hx⟩, -⟩⟩
  · rw [hl.readAll] at hread
    cases hread
  · cases hx
  · rw [hl.readAll] at hread
    cases hread
    refine ⟨?_, ?_⟩
    · rcases hl.replace_cases hfs kept with ⟨e'', hx⟩ | ⟨l', fs₃, hx, -⟩
      · exact congrArg Prod.snd (hreplace.symm.trans hx)
      · cases hreplace.symm.trans hx
    · rintro rfl
      cases hredrives
      exact hkept rfl
  · cases hx

/-- New settings stay when the directory cannot be taken, and when its log cannot be recovered. -/
lemma read_of_failed (hfs : fs.WellFormed) (hopen : fs.openFile (configPath dir) = .ok id)
    (hv : c.validate = .ok ()) (ht : c.text = some t)
    (h : Attempt (openWith dir c) g ref fs es (.error e) fs') :
    fs'.read (configPath dir) = .ok (Utf8.encode t) := by
  have hwritten := hfs.setContent id (Utf8.encode t)
  have hcontent := FileStore.content_setContent (hfs.lt_size hopen) (Utf8.encode t)
  have hopen' : (fs.setContent id (Utf8.encode t)).openFile (configPath dir) = .ok id :=
    (FileStore.openFile_congr (fs.root_setContent _ _) _).trans hopen
  have hexec := exec_openWith (c := c) hopen
  rw [hv, ht] at hexec
  cases h with
  | untaken hx =>
    obtain ⟨-, hgrows⟩ := start_error hwritten (hexec.symm.trans hx)
    exact hgrows.read hwritten (FileStore.read_eq_ok_iff.mpr ⟨id, hopen', hcontent⟩)
  | @unrecovered o fs₁ fs₂ es e l hx hr hs =>
    obtain ⟨mid, htaken⟩ := exists_taken hwritten (hexec.symm.trans hx)
    have hfile : fs₁.openFile (configPath dir) = .ok id := htaken.openFile hwritten hopen'
    -- a recovery that fails has replaced nothing, and only the log was cut, in another file
    suffices hkept : fs₂ = fs₁ ∧ ∀ log, o.log = .file log → log.file ≠ id by
      obtain ⟨rfl, hother⟩ := hkept
      refine FileStore.read_eq_ok_iff.mpr ⟨id, (fs₂.openFile_locked _ _).trans hfile, ?_⟩
      exact (htaken.content (hwritten.lt_size hopen') hother).trans hcontent
    rcases htaken.log with ⟨-, hlog, rfl⟩ | ⟨-, log, bs, s, hlog, -, hholds, hscan, rfl⟩
    · rw [hlog] at hs ⊢
      have hempty : (Log.memory []).Sound fs₁ [] := rfl
      obtain ⟨-, hrs⟩ := files_of_unrecovered hempty htaken.wellFormed hr hs
      exact absurd rfl hrs
    · rw [hlog] at hs ⊢
      obtain ⟨rfl, hrs⟩ := files_of_unrecovered (Log.sound_opened hholds hscan)
        (htaken.wellFormed.setContent _ _) hr hs
      refine ⟨rfl, ?_⟩
      -- in the settings a scan would have found nothing, and there is nothing to replace then
      rintro log ⟨⟩ rfl
      refine hrs (ServiceConfig.eq_nil_of_found? ht (LogScan.found?_eq_some_iff.mpr ⟨s, ?_, rfl⟩))
      rw [← hscan, ← hholds.content]
      congr 1
      exact hcontent.symm.trans (htaken.grows.content _ (hwritten.lt_size hopen')).symm

/-! ### A directory in use -/

lemma isEntry_lockName : FileStore.IsEntry lockName :=
  ⟨⟨by decide, by decide⟩, by decide, by decide, by decide, by decide⟩

/-- A data directory with certain settings that a service holds. -/
def held (settings : Bytes) : FileStore :=
  .flat [(lockName, 1), (ServiceConfig.fileName, 0)] #[settings, []] [1]

lemma wellFormed_held (settings : Bytes) : (held settings).WellFormed :=
  FileStore.wellFormed_flat (by simp) _

lemma openFile_held (settings : Bytes) : (held settings).openFile (configPath "/") = .ok 0 :=
  FileStore.openFile_in_root isEntry_fileName rfl

lemma read_held (settings : Bytes) : (held settings).read (configPath "/") = .ok settings :=
  FileStore.read_eq_ok_iff.mpr ⟨0, openFile_held settings, rfl⟩

lemma start_held (c : ServiceConfig) (settings : Bytes) :
    (start "/" c).exec (held settings) = (.error (.inUse "/"), held settings) := by
  have hopen : (held settings).openFile (Path.join "/" lockName) = .ok 1 :=
    FileStore.openFile_in_root isEntry_lockName rfl
  have hlock : (takeLock "/").exec (held settings) = (.error (.inUse "/"), held settings) := by
    rw [takeLock, FileM.exec_bind_of_ok _
      (FileM.exec_mapError_of_ok (FileM.exec_openOrCreate hopen))]
    rfl
  rw [start_eq, FileM.exec_bind_of_ok _ (FileM.exec_mapError_of_ok
    (FileM.exec_ask_of_ok (held settings).canonical_root)), FileM.exec_bind_of_error _ hlock]

/-- Settings with another limit than the default. -/
def fewer : ServiceConfig := { maxActive := 5 }

lemma attempt_held {t : String} (ht : fewer.text = some t) (settings : Bytes) :
    Attempt (openWith "/" fewer) [] 0 (held settings) [] (.error (.system (.inUse "/")))
      (held (Utf8.encode t)) := by
  refine .untaken ?_
  have hv : fewer.validate = .ok () := rfl
  rw [exec_openWith (openFile_held settings), hv, ht]
  exact start_held fewer (Utf8.encode t)

/-- The comments of the default settings tell them from all that are written. -/
lemma encode_ne_default {c : ServiceConfig} {t : String} (ht : c.text = some t) :
    Utf8.encode t ≠ Utf8.encode ServiceConfig.defaultText := by
  have hcomment : (Utf8.encode ServiceConfig.defaultText).head? = some 0x23 := by decide +kernel
  obtain ⟨rest, hrest⟩ := ServiceConfig.encode_text ht
  intro heq
  rw [← heq, hrest] at hcomment
  simp at hcomment

/-! ### What is left of the settings -/

/-- An attempt that fails leaves the settings of a directory if and only if the new ones are not
valid, cannot be written, or read the same. Otherwise the directory has the new ones. -/
theorem settings_kept_iff (hfs : fs.WellFormed) (hold : fs.read (configPath dir) = .ok old)
    (h : Attempt (openWith dir c) g ref fs es (.error e) fs') :
    (fs'.read (configPath dir) = .ok old ↔
      ∀ t, c.validate = .ok () → c.text = some t → Utf8.encode t = old) ∧
    ∀ t, c.validate = .ok () → c.text = some t → fs'.read (configPath dir) = .ok (Utf8.encode t) := by
  obtain ⟨id, hopen, -⟩ := FileStore.read_eq_ok_iff.mp hold
  have hnew : ∀ t, c.validate = .ok () → c.text = some t →
      fs'.read (configPath dir) = .ok (Utf8.encode t) := fun t hv ht =>
    read_of_failed hfs hopen hv ht h
  refine ⟨⟨fun hkept t hv ht => ?_, fun hsame => ?_⟩, hnew⟩
  · exact Except.ok.inj ((hnew t hv ht).symm.trans hkept)
  · by_cases hwritable : c.validate = .ok () ∧ ∃ t, c.text = some t
    · obtain ⟨hv, t, ht⟩ := hwritable
      rw [hnew t hv ht, hsame t hv ht]
    · have hexec : ∃ f, (openWith dir c).exec fs = (.error f, fs) := by
        have hexec := exec_openWith (c := c) hopen
        cases hv : c.validate with
        | error f => exact ⟨_, by rw [hexec, hv]⟩
        | ok u =>
          cases ht : c.text with
          | none => exact ⟨_, by rw [hexec, hv, ht]⟩
          | some t => exact absurd ⟨hv, t, ht⟩ hwritable
      obtain ⟨f, hexec⟩ := hexec
      cases h with
      | untaken hx =>
        obtain ⟨-, rfl⟩ := Prod.mk.inj (hexec.symm.trans hx)
        exact hold
      | unrecovered hx => cases hexec.symm.trans hx

/-- Default settings are lost to a service that finds the directory in use. -/
theorem settings_kept_iff_held : ∃ t, fewer.text = some t ∧
    (held (Utf8.encode ServiceConfig.defaultText)).WellFormed ∧
    (held (Utf8.encode ServiceConfig.defaultText)).read (configPath "/") =
      .ok (Utf8.encode ServiceConfig.defaultText) ∧
    Attempt (openWith "/" fewer) [] 0 (held (Utf8.encode ServiceConfig.defaultText)) []
      (.error (.system (.inUse "/"))) (held (Utf8.encode t)) ∧
    (held (Utf8.encode t)).read (configPath "/") = .ok (Utf8.encode t) ∧
    (held (Utf8.encode t)).read (configPath "/") ≠ .ok (Utf8.encode ServiceConfig.defaultText) := by
  obtain ⟨t, ht⟩ : ∃ t, fewer.text = some t := ⟨_, rfl⟩
  have hattempt := attempt_held ht (Utf8.encode ServiceConfig.defaultText)
  obtain ⟨hkept, hnew⟩ := settings_kept_iff (wellFormed_held _) (read_held _) hattempt
  exact ⟨t, ht, wellFormed_held _, read_held _, hattempt, hnew t rfl ht,
    fun hold => encode_ne_default ht (hkept.mp hold t rfl ht)⟩

/-- An opening that fails does not leave the settings of a directory as they were. -/
theorem settings_not_kept :
    ¬∀ (fs fs' : FileStore) (dir : String) (c : ServiceConfig) (g : Registry) (ref : LogRef)
      (es : List Exchange) (e : TxError) (old : Bytes),
      fs.WellFormed → fs.read (configPath dir) = .ok old →
      Attempt (openWith dir c) g ref fs es (.error e) fs' →
      fs'.read (configPath dir) = .ok old := by
  intro h
  obtain ⟨t, ht⟩ : ∃ t, fewer.text = some t := ⟨_, rfl⟩
  have hold := h _ _ _ _ _ _ _ _ _ (wellFormed_held _) (read_held _)
    (attempt_held ht (Utf8.encode ServiceConfig.defaultText))
  rw [read_held] at hold
  exact encode_ne_default ht (Except.ok.inj hold)

end Opening

end TwoPhaseCommit
