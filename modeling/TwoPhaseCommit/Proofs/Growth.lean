import TwoPhaseCommit.Proofs.Mirror
import TwoPhaseCommit.Proofs.Paths

/-!
# What stays in a file store

Programs that make directories and files leave all that was there as it was, whether they succeed or
fail (`FileStore.Grows`). Opening a log does no more than that, but for the end of a torn log, which
it cuts off. A file with one name keeps it, and its content, unless it is the one that is written to
(`FileStore.Owned`).
-/

namespace TwoPhaseCommit

namespace FileStore

variable {fs fs₁ fs₂ : FileStore} {path : String} {place : Place} {n : Node} {id other : FileId}
  {bs : Bytes} {location : List String}

/-- Names have come, and files for them. Whatever was there is as it was. -/
structure Grows (fs fs₁ : FileStore) : Prop where
  names : ∀ location n, fs.node? location = some n → fs₁.node? location = some n
  files : ∀ location id, fs₁.node? location = some (.file id) →
    fs.node? location = some (.file id) ∨ fs.contents.size ≤ id
  content : ∀ id < fs.contents.size, fs₁.content id = fs.content id
  size : fs.contents.size ≤ fs₁.contents.size
  locked : fs₁.locked = fs.locked

@[refl] lemma Grows.refl (fs : FileStore) : fs.Grows fs :=
  ⟨fun _ _ h => h, fun _ _ h => .inl h, fun _ _ => rfl, le_rfl, rfl⟩

lemma Grows.trans (h : fs.Grows fs₁) (h' : fs₁.Grows fs₂) : fs.Grows fs₂ where
  names location n hn := h'.names location n (h.names location n hn)
  files location id hn := by
    rcases h'.files location id hn with hn₁ | hsize
    · exact h.files location id hn₁
    · exact .inr (h.size.trans hsize)
  content id hid := (h'.content id (hid.trans_le h.size)).trans (h.content id hid)
  size := h.size.trans h'.size
  locked := h'.locked.trans h.locked

lemma Grows.keeps (h : fs.Grows fs₁) : fs.Keeps fs₁ := fun l => h.names l _

lemma Grows.stat (h : fs.Grows fs₁) (hfs : fs.WellFormed) (hn : fs.stat path = .ok n) :
    fs₁.stat path = .ok n :=
  stat_keeps hfs.root h.keeps (fun l => h.names l n) hn

lemma Grows.openFile (h : fs.Grows fs₁) (hfs : fs.WellFormed) (ho : fs.openFile path = .ok id) :
    fs₁.openFile path = .ok id :=
  openFile_of_stat (h.stat hfs (stat_of_openFile ho))

lemma Grows.isDirectory (h : fs.Grows fs₁) (hfs : fs.WellFormed)
    (hd : fs.isDirectory path = true) : fs₁.isDirectory path = true :=
  isDirectory_keeps hfs.root h.keeps hd

lemma canonical_keeps (hfs : fs.WellFormed) (hk : fs.Keeps fs₁)
    (hd : fs.isDirectory path = true) : fs₁.canonical path = fs.canonical path := by
  have hstat := stat_of_isDirectory hd
  have hstat₁ := stat_of_isDirectory (isDirectory_keeps hfs.root hk hd)
  obtain ⟨place, hplace, -⟩ := locate_of_stat hstat
  rw [canonical, canonical, hstat, hstat₁, hplace, (locate_keeps hfs.root hk hplace).1]
  rfl

lemma read_eq_ok_iff :
    fs.read path = .ok bs ↔ ∃ id, fs.openFile path = .ok id ∧ fs.content id = bs := by
  rw [read]
  cases fs.openFile path with
  | error e => simp [Functor.map, Except.map]
  | ok id => simp [Functor.map, Except.map]

lemma Grows.read (h : fs.Grows fs₁) (hfs : fs.WellFormed) (hr : fs.read path = .ok bs) :
    fs₁.read path = .ok bs := by
  obtain ⟨id, ho, hc⟩ := read_eq_ok_iff.mp hr
  exact read_eq_ok_iff.mpr ⟨id, h.openFile hfs ho, (h.content id (hfs.lt_size ho)).trans hc⟩

lemma WellFormed.setContent (h : fs.WellFormed) (id : FileId) (bs : Bytes) :
    (fs.setContent id bs).WellFormed :=
  h.congr rfl (Array.size_setIfInBounds ..).ge

/-! ### New names -/

lemma grows_directory (hne : location ≠ []) (hp : fs.node? location.dropLast = some .directory)
    (hnew : fs.node? location = none) : fs.Grows (fs.link location .directory) := by
  have hr := renames_link hne hp .directory
  refine ⟨fun l m hl => ?_, fun l id hl => ?_, fun _ _ => rfl, le_rfl, rfl⟩
  · exact hr.other (by simp [hnew]) (by rintro rfl; simp [hnew] at hl) hl
  · rw [hr] at hl
    split at hl
    next => cases hl
    next =>
      split at hl
      next => cases hl
      next => exact .inl hl

lemma grows_file (hne : location ≠ []) (hp : fs.node? location.dropLast = some .directory)
    (hnew : fs.node? location = none) :
    fs.Grows { fs.link location (.file fs.contents.size) with contents := fs.contents.push [] } := by
  have hr : fs.Renames location (some (.file fs.contents.size))
      { fs.link location (.file fs.contents.size) with contents := fs.contents.push [] } :=
    renames_link hne hp (.file fs.contents.size)
  refine ⟨fun l m hl => ?_, fun l id hl => ?_, fun id hid => ?_, ?_, rfl⟩
  · exact hr.other (by simp [hnew]) (by rintro rfl; simp [hnew] at hl) hl
  · rw [hr] at hl
    split at hl
    next =>
      cases hl
      exact .inr le_rfl
    next =>
      split at hl
      next => cases hl
      next => exact .inl hl
  · simp [content, Array.getElem?_push, hid.ne]
  · simp

/-! ### Files of one name -/

/-- A file has a name, which a path leads to, and no other name. -/
structure Owned (fs : FileStore) (path : String) (id : FileId) (bs : Bytes) : Prop where
  openFile : fs.openFile path = .ok id
  content : fs.content id = bs
  sole : ∀ l l', fs.node? l = some (.file id) → fs.node? l' = some (.file id) → l = l'

lemma Owned.grows (h : fs.Owned path id bs) (hfs : fs.WellFormed) (hg : fs.Grows fs₁) :
    fs₁.Owned path id bs := by
  have hlt := hfs.lt_size h.openFile
  have hold : ∀ l, fs₁.node? l = some (.file id) → fs.node? l = some (.file id) := fun l hl =>
    (hg.files l id hl).resolve_right hlt.not_ge
  exact ⟨hg.openFile hfs h.openFile, (hg.content id hlt).trans h.content,
    fun l l' hl hl' => h.sole l l' (hold l hl) (hold l' hl')⟩

/-- Files have the same names and contents as before. -/
lemma Owned.congr (h : fs.Owned path id bs) (hr : fs₁.root = fs.root)
    (hc : fs₁.content id = fs.content id) : fs₁.Owned path id bs := by
  have hn : ∀ l, fs₁.node? l = fs.node? l := fun l => by rw [node?, hr, node?]
  refine ⟨(openFile_congr hr path).trans h.openFile, hc.trans h.content, fun l l' hl hl' => ?_⟩
  rw [hn] at hl hl'
  exact h.sole l l' hl hl'

lemma Owned.setContent (h : fs.Owned path id bs) (hne : other ≠ id) (new : Bytes) :
    (fs.setContent other new).Owned path id bs :=
  h.congr rfl (content_setContent_of_ne hne.symm new)

lemma Owned.write (h : fs.Owned path id bs) (hid : id < fs.contents.size) (new : Bytes) :
    (fs.setContent id new).Owned path id new where
  openFile := (openFile_congr (fs.root_setContent id new) path).trans h.openFile
  content := content_setContent hid new
  sole := h.sole

/-- Files of one name are different if their paths end differently. -/
lemma Owned.ne (h : fs.Owned path id bs) (hroot : fs.node? [] = some .directory) {path' : String}
    {c c' : Char} (ho : fs.openFile path' = .ok other) (hc : path.toList.getLast? = some c)
    (hc' : path'.toList.getLast? = some c') (hslash : c ≠ '/') (hslash' : c' ≠ '/') (hne : c ≠ c') :
    other ≠ id := by
  rintro rfl
  obtain ⟨place, hplace, hnode, -⟩ := locate_of_stat (stat_of_openFile h.openFile)
  obtain ⟨place', hplace', hnode', -⟩ := locate_of_stat (stat_of_openFile ho)
  exact location_ne hc hc' hslash hslash' hne hplace hplace' (by simp [hnode]) (by simp [hnode'])
    (h.sole _ _ ((node_of_locate hroot hplace).symm.trans hnode)
      ((node_of_locate hroot hplace').symm.trans hnode'))

/-! ### Files in the root -/

/-- A store with files in its root only. -/
def flat (files : List (String × FileId)) (contents : Array Bytes) (locked : List FileId) :
    FileStore where
  root := .directory (files.map fun f => (f.1, .file f.2))
  contents
  locked

lemma wellFormed_flat {files : List (String × FileId)} {contents : Array Bytes}
    (h : ∀ f ∈ files, f.2 < contents.size) (locked : List FileId) :
    (flat files contents locked).WellFormed where
  root := rfl
  contents location id hl := by
    rw [node?, flat] at hl
    cases location with
    | nil => cases hl
    | cons name names =>
      rw [Tree.node?_cons, Tree.child?] at hl
      obtain ⟨t, ht, hnode⟩ := Option.bind_eq_some_iff.mp hl
      obtain ⟨es, es', heq, -⟩ := List.lookup_eq_some_iff.mp ht
      obtain ⟨f, hf, hft⟩ := List.mem_map.mp (heq ▸ List.mem_append_right es
        (List.mem_cons_self (a := (name, t)) (l := es')))
      obtain ⟨-, rfl⟩ := Prod.mk.inj hft
      cases names with
      | nil =>
        cases hnode
        exact h f hf
      | cons => cases hnode

section Flat

variable {files : List (String × FileId)} {name : String}

lemma locate_flat_of_new (hname : IsEntry name) (hnew : ∀ f ∈ files, name ≠ f.1)
    (contents : Array Bytes) (locked : List FileId) :
    (flat files contents locked).locate (Path.join "/" name) = .ok ⟨[name], none, false⟩ := by
  have hvacant : (flat files contents locked).root.child? name = none := by
    simp only [flat, Tree.child?, List.lookup_eq_none_iff, List.forall_mem_map]
    exact fun f hf => bne_iff_ne.mpr (hnew f hf)
  rw [locate_in_root _ hname, hvacant]
  rfl

/-- A new file comes first. -/
lemma exec_openOrCreate_flat (hname : IsEntry name) (hnew : ∀ f ∈ files, name ≠ f.1)
    (contents : Array Bytes) (locked : List FileId) :
    (FileM.openOrCreate (Path.join "/" name)).exec (flat files contents locked) =
      (.ok contents.size, flat ((name, contents.size) :: files) (contents.push []) locked) := by
  have hplace := locate_flat_of_new hname hnew contents locked
  have hfilter : (files.map fun f => (f.1, Tree.file f.2)).filter (·.1 ≠ name) =
      files.map fun f => (f.1, Tree.file f.2) := by
    rw [List.filter_eq_self, List.forall_mem_map]
    exact fun f hf => by simpa using (hnew f hf).symm
  rw [FileM.exec_openOrCreate_of_none hplace rfl rfl, link, flat, Tree.set, Tree.setChild, hfilter]
  rfl

end Flat

end FileStore

namespace FileM

open FileStore

variable {fs fs₁ : FileStore} {path dir : String} {id : FileId}

/-- A directory is made or not. -/
lemma makeDirectory_grows (h : fs.WellFormed) (path : String) :
    ((makeDirectory path).exec fs).2.WellFormed ∧ fs.Grows ((makeDirectory path).exec fs).2 := by
  rw [makeDirectory]
  cases hplace : fs.locate path with
  | error e =>
    rw [exec_bind_of_error _ (by rw [exec_ask, hplace])]
    exact ⟨h, .refl fs⟩
  | ok place =>
    rw [exec_bind_of_ok _ (exec_ask_of_ok hplace)]
    cases hnode : place.node with
    | some n => exact ⟨h, .refl fs⟩
    | none =>
      obtain ⟨hne, hp, hvacant⟩ := vacant_of_locate h.root hplace hnode
      exact ⟨h.renames hne (renames_link hne hp .directory) le_rfl (by simp),
        grows_directory hne hp hvacant⟩

lemma exec_unless_snd (e : IoError) (fs : FileStore) :
    ((do unless (← get).isDirectory path do throw e : FileM IoError Unit).exec fs).2 = fs := by
  rw [exec_bind_of_ok _ exec_get]
  cases fs.isDirectory path <;> rfl

lemma makeNested_grows (h : fs.WellFormed) (paths : List String) :
    ((makeNested paths).exec fs).2.WellFormed ∧ fs.Grows ((makeNested paths).exec fs).2 := by
  induction paths generalizing fs with
  | nil => exact ⟨h, .refl fs⟩
  | cons path above ih =>
    obtain ⟨h₁, hg₁⟩ := makeDirectory_grows h path
    rw [makeNested, exec_bind_of_ok _ (exec_observing ..)]
    split
    next => exact ⟨h₁, hg₁⟩
    next =>
      obtain ⟨h₂, hg₂⟩ := ih h₁
      rw [exec_bind]
      split
      next fs₂ habove =>
        rw [habove] at h₂ hg₂
        obtain ⟨h₃, hg₃⟩ := makeDirectory_grows h₂ path
        rw [exec_bind_of_ok _ (exec_observing ..)]
        split
        next => exact ⟨h₃, hg₁.trans (hg₂.trans hg₃)⟩
        next =>
          rw [exec_unless_snd]
          exact ⟨h₃, hg₁.trans (hg₂.trans hg₃)⟩
      next fs₂ habove =>
        rw [habove] at h₂ hg₂
        exact ⟨h₂, hg₁.trans hg₂⟩
    next =>
      rw [exec_unless_snd]
      exact ⟨h₁, hg₁⟩

lemma makeTree_grows (h : fs.WellFormed) (dir : String) :
    ((makeTree dir).exec fs).2.WellFormed ∧ fs.Grows ((makeTree dir).exec fs).2 := by
  rw [makeTree]
  split
  · exact ⟨h, .refl fs⟩
  · exact makeNested_grows h _

/-- A file is opened that was there, or one is made that has no other name. -/
lemma openOrCreate_ok (h : fs.WellFormed) (hx : (openOrCreate path).exec fs = (.ok id, fs₁)) :
    fs₁.WellFormed ∧ fs.Grows fs₁ ∧ fs₁.openFile path = .ok id ∧
      (fs.openFile path = .ok id ∨ id = fs.contents.size ∧ fs₁.Owned path id []) := by
  rcases exec_openOrCreate_cases fs path with
    ⟨e, he⟩ | ⟨old, hold, ho⟩ | ⟨place, hplace, hnode, honly, hnew⟩
  · rw [he] at hx
    cases hx
  · rw [hold] at hx
    cases hx
    exact ⟨h, .refl fs, ho, .inl ho⟩
  · rw [hnew] at hx
    cases hx
    obtain ⟨hne, hp, hvacant⟩ := vacant_of_locate h.root hplace hnode
    have hopens := opens_new h hplace hnode honly
    have hempty : FileStore.content { fs.link place.location (.file fs.contents.size) with
        contents := fs.contents.push [] } fs.contents.size = [] := by simp [content]
    have hr := renames_link hne hp (.file fs.contents.size)
    -- the new identity stands for nothing else, as all files have smaller ones
    have hsole : ∀ l, (fs.link place.location (.file fs.contents.size)).node? l =
        some (.file fs.contents.size) → l = place.location := by
      intro l hl
      by_contra hother
      rw [hr, if_neg hother] at hl
      split at hl
      next => cases hl
      next => exact absurd (h.contents l _ hl) (lt_irrefl _)
    exact ⟨hopens.wellFormed, grows_file hne hp hvacant, hopens.openFile, .inr ⟨rfl,
      hopens.openFile, hempty, fun l l' hl hl' => (hsole l hl).trans (hsole l' hl').symm⟩⟩

/-- A file that is made is not found by a path that ends differently. -/
lemma openFile_of_openOrCreate (h : fs.WellFormed)
    (hx : (openOrCreate path).exec fs = (.ok id, fs₁)) {path' : String} {other : FileId}
    {c c' : Char} (hc : path.toList.getLast? = some c) (hc' : path'.toList.getLast? = some c')
    (hslash : c ≠ '/') (hslash' : c' ≠ '/') (hne : c ≠ c')
    (ho : fs₁.openFile path' = .ok other) : fs.openFile path' = .ok other := by
  rcases exec_openOrCreate_cases fs path with
    ⟨e, he⟩ | ⟨old, hold, -⟩ | ⟨place, hplace, hnode, -, hnew⟩
  · cases hx.symm.trans he
  · cases hx.symm.trans hold
    exact ho
  · have h₁ := (openOrCreate_ok h hx).1
    obtain ⟨-, hstore⟩ := Prod.mk.inj (hx.symm.trans hnew)
    obtain ⟨hloc, hp, -⟩ := vacant_of_locate h.root hplace hnode
    have hr : fs.Renames place.location (some (.file fs.contents.size)) fs₁ :=
      hstore ▸ renames_link hloc hp (.file fs.contents.size)
    -- no directory is made, so that the other path leads where it led before
    have hback : ∀ l n, l ≠ place.location → fs₁.node? l = some n → fs.node? l = some n := by
      intro l n hl hn
      rw [hr, if_neg hl] at hn
      split at hn
      next => cases hn
      next => exact hn
    have hkeeps : fs₁.Keeps fs := by
      intro l hl
      refine hback l _ ?_ hl
      rintro rfl
      cases hr.self.symm.trans hl
    obtain ⟨place', hplace', hnode', honly⟩ := locate_of_stat (stat_of_openFile ho)
    have hother : place'.location ≠ place.location :=
      location_ne hc' hc hslash' hslash hne.symm hplace' hplace (by simp [hnode']) (by simp [hnode])
    have hfile := hback _ _ hother ((node_of_locate h₁.root hplace').symm.trans hnode')
    exact openFile_of_stat (stat_of_locate (locate_keeps h₁.root hkeeps hplace').1 hfile
      fun hn => honly hn)

lemma openOrCreate_error {e : IoError} (hx : (openOrCreate path).exec fs = (.error e, fs₁)) :
    fs₁ = fs := by
  rcases exec_openOrCreate_cases fs path with ⟨e, he⟩ | ⟨old, hold, -⟩ | ⟨place, -, -, -, hnew⟩
  · rw [he] at hx
    cases hx
    rfl
  · rw [hold] at hx
    cases hx
  · rw [hnew] at hx
    cases hx

end FileM

/-! ### Logs -/

namespace FileLog

open FileStore LogScan

variable {log log₁ : FileLog} {fs fs₁ : FileStore} {path : String} {id : FileId} {bs new : Bytes}
  {rs : List LogRecord}

/-- In a directory that is there, opening a log makes its file if it is missing, and cuts off its
torn end. -/
lemma open_housed (h : fs.WellFormed) (hd : Housed fs path) :
    (∃ e fs₁, (FileLog.open path).exec fs = (.error e, fs₁) ∧ fs₁.WellFormed ∧ fs.Grows fs₁) ∨
    ∃ log fs₁ bs s, log.path = path ∧ fs₁.WellFormed ∧ fs.Grows fs₁ ∧ log.Holds fs₁ bs ∧
      LogScan.scan bs = .ok s ∧
      (FileLog.open path).exec fs = (.ok log, fs₁.setContent log.file (bs.take s.validLength)) := by
  rcases FileM.openOrCreate_cases h path with ⟨e, he⟩ | ⟨id, fs₁, hmake, ho⟩
  · refine .inl ⟨.io e, fs, ?_, h, .refl fs⟩
    rw [FileLog.open]
    cases hparent : Path.parent? path with
    | none =>
      dsimp only
      rw [FileM.exec_bind_of_error _ (exec_io_of_error he)]
    | some dir =>
      dsimp only
      rw [FileM.exec_bind_of_ok _ (exec_io_of_ok (FileM.exec_makeTree (hd dir hparent))),
        FileM.exec_bind_of_error _ (exec_io_of_error he)]
  · obtain ⟨h₁, hgrows, hopen, -⟩ := FileM.openOrCreate_ok h hmake
    have hholds : (⟨path, id, 0, 0⟩ : FileLog).Holds fs₁ (fs₁.content id) :=
      ⟨fun dir hdir => (hd dir hdir).imp_right (hgrows.isDirectory h), hopen, h₁.lt_size hopen, rfl⟩
    rw [open_openOrCreate hd hmake ho h]
    cases hscan : LogScan.scan (fs₁.content id) with
    | error e => exact .inl ⟨e, fs₁, hholds.open_of_error hscan, h₁, hgrows⟩
    | ok s =>
      exact .inr ⟨⟨path, id, s.validLength, s.tornBytes⟩, fs₁, fs₁.content id, s, rfl, h₁, hgrows,
        hholds.congr rfl rfl, hscan, hholds.exec_open_of_ok hscan⟩

/-- Opening a log makes its directory and its file as far as they are missing, and cuts off its torn
end. -/
lemma open_cases (h : fs.WellFormed) (path : String) :
    (∃ e fs₁, (FileLog.open path).exec fs = (.error e, fs₁) ∧ fs₁.WellFormed ∧ fs.Grows fs₁) ∨
    ∃ log fs₁ bs s, log.path = path ∧ fs₁.WellFormed ∧ fs.Grows fs₁ ∧ log.Holds fs₁ bs ∧
      LogScan.scan bs = .ok s ∧
      (FileLog.open path).exec fs = (.ok log, fs₁.setContent log.file (bs.take s.validLength)) := by
  cases hparent : Path.parent? path with
  | none =>
    refine open_housed h fun dir hdir => ?_
    rw [hparent] at hdir
    cases hdir
  | some dir =>
    obtain ⟨h₁, hgrows₁⟩ := FileM.makeTree_grows h dir
    cases hmake : (FileM.makeTree dir).exec fs with
    | mk result fs₁ =>
      rw [hmake] at h₁ hgrows₁
      cases result with
      | error e =>
        refine .inl ⟨.io e, fs₁, ?_, h₁, hgrows₁⟩
        rw [FileLog.open, hparent]
        dsimp only
        rw [FileM.exec_bind_of_error _ (exec_io_of_error hmake)]
      | ok u =>
        have hd := (FileM.makeTree_ok h hmake).2
        -- once the directory is made, the log is opened as in one that was there
        have hhoused : Housed fs₁ path := housed_of_parent hparent hd
        rw [open_makeTree hparent hmake hd]
        rcases open_housed h₁ hhoused with
          ⟨e, fs₂, hexec, h₂, hgrows₂⟩ | ⟨log, fs₂, bs, s, hpath, h₂, hgrows₂, hrest⟩
        · exact .inl ⟨e, fs₂, hexec, h₂, hgrows₁.trans hgrows₂⟩
        · exact .inr ⟨log, fs₂, bs, s, hpath, h₂, hgrows₁.trans hgrows₂, hrest⟩

/-- The name under which a new content is written ends differently from every other. -/
lemma getLast?_temporary (log : FileLog) : log.temporary.toList.getLast? = some 'e' :=
  Path.getLast?_withFileName (by
    rw [String.toList_append, List.getLast?_append]
    rfl) _

/-- What a log does that takes other records: they are written to a file beside it, which takes its
name. -/
lemma Holds.exec_replace_of_ok (h : log.Holds fs bs) (hfs : fs.WellFormed)
    (hr : (log.replace rs).exec fs = (.ok log₁, fs₁)) :
    ∃ (mid : FileStore) (place goal : Place), mid.WellFormed ∧ fs.Grows mid ∧
      mid.locate log.temporary = .ok place ∧ mid.node? place.location = some (.file log₁.file) ∧
      mid.node? goal.location = some (.file log.file) ∧
      mid.Renames place.location none (mid.unlink place.location) ∧
      (mid.unlink place.location).Renames goal.location (some (.file log₁.file)) fs₁ ∧
      mid.Keeps fs₁ ∧ fs₁.contents = (mid.setContent log₁.file (frames rs)).contents ∧
        fs₁.locked = mid.locked := by
  rw [replace] at hr
  cases hmake : (FileM.openOrCreate log.temporary).exec fs with
  | mk result mid =>
    cases result with
    | error e =>
      have hwrite : (FileM.write log.temporary (frames rs)).exec fs = (.error e, mid) := by
        rw [FileM.write, FileM.exec_bind_of_error _ hmake]
      rw [FileM.exec_bind_of_error _ (exec_io_of_error hwrite)] at hr
      cases hr
    | ok id =>
      obtain ⟨hmid, hgrows, hsource, -⟩ := FileM.openOrCreate_ok hfs hmake
      have hwrite : (FileM.write log.temporary (frames rs)).exec fs =
          (.ok (), mid.setContent id (frames rs)) := by
        rw [FileM.write, FileM.exec_bind_of_ok _ hmake]
        rfl
      have hroot := mid.root_setContent id (frames rs)
      have hs := (openFile_congr hroot _).trans hsource
      -- the log is where it was, as only a file was made and written to
      have ht := (openFile_congr hroot _).trans (hgrows.openFile hfs h.openFile)
      have hwritten := hmid.setContent id (frames rs)
      obtain ⟨place, goal, hplace, -, hfile, hold, -, -, -, hr₁, hr₂, hrename⟩ :=
        FileM.exec_rename hwritten hs ht
      obtain ⟨fs₂, hrename', -, -, hopen, -⟩ := FileM.rename_ok hwritten hs ht
      obtain rfl := congrArg Prod.snd (hrename.symm.trans hrename')
      rw [FileM.exec_bind_of_ok _ (exec_io_of_ok hwrite),
        FileM.exec_bind_of_ok _ (exec_io_of_ok hrename),
        FileM.exec_bind_of_ok _ (exec_io_of_ok (FileM.exec_ask_of_ok hopen))] at hr
      cases hr
      exact ⟨mid, place, goal, hmid, hgrows, (locate_congr hroot _).symm.trans hplace, hfile, hold,
        hr₁, hr₂, (hr₁.keeps (by simp [hfile])).trans (hr₂.keeps (hr₁.ne_directory (by simp [hold]))),
        rfl, rfl⟩

/-- To replace the records of a log loses no directory, and lets no lock go. -/
lemma Holds.replace_keeps (h : log.Holds fs bs) (hfs : fs.WellFormed)
    (hr : (log.replace rs).exec fs = (.ok log₁, fs₁)) : fs.Keeps fs₁ ∧ fs₁.locked = fs.locked := by
  obtain ⟨mid, -, -, -, hgrows, -, -, -, -, -, hkeeps, -, hlocked⟩ := h.exec_replace_of_ok hfs hr
  exact ⟨hgrows.keeps.trans hkeeps, hlocked.trans hgrows.locked⟩

/-- To replace the records of a log touches no other file. -/
lemma Holds.replace_owned (h : log.Holds fs bs) (hfs : fs.WellFormed)
    (hr : (log.replace rs).exec fs = (.ok log₁, fs₁)) {c : Char} (ho : fs.Owned path id new)
    (hc : path.toList.getLast? = some c) (hslash : c ≠ '/') (hne : c ≠ 'e') (hid : log.file ≠ id) :
    fs₁.Owned path id new ∧ log₁.file ≠ id := by
  obtain ⟨mid, place, goal, hmid, hgrows, hplace, hfile, hold, hr₁, hr₂, hkeeps, hcontents, -⟩ :=
    h.exec_replace_of_ok hfs hr
  have hmine := ho.grows hfs hgrows
  obtain ⟨own, hown, hnode, honly⟩ := locate_of_stat (stat_of_openFile hmine.openFile)
  have hself := (node_of_locate hmid.root hown).symm.trans hnode
  -- the file that is written to has another name, and so it is another file
  have hother : log₁.file ≠ id := by
    intro heq
    have hnode' := (node_of_locate hmid.root hplace).trans hfile
    refine location_ne hc (getLast?_temporary log) hslash (by decide) hne hown hplace
      (by simp [hnode]) (by simp [hnode']) (hmine.sole _ _ hself ?_)
    rw [hfile, heq]
  -- neither of the two names that change stands for the file
  have hkept : ∀ l, mid.node? l = some (.file id) → fs₁.node? l = some (.file id) := by
    intro l hl
    have hl₁ := hr₁.other (by simp [hfile]) (by rintro rfl; simp [hfile, hother] at hl) hl
    have hgoal : mid.node? goal.location ≠ some .directory := by simp [hold]
    exact hr₂.other (hr₁.ne_directory hgoal) (by rintro rfl; simp [hold, hid] at hl) hl₁
  have hback : ∀ l, fs₁.node? l = some (.file id) → mid.node? l = some (.file id) := by
    intro l hl
    rw [hr₂] at hl
    split at hl
    next => simp [hother] at hl
    next =>
      split at hl
      next => cases hl
      next =>
        rw [hr₁] at hl
        split at hl
        next => cases hl
        next =>
          split at hl
          next => cases hl
          next => exact hl
  refine ⟨⟨openFile_of_stat (stat_keeps hmid.root hkeeps hkept (stat_of_openFile hmine.openFile)),
    ?_, fun l l' hl hl' => hmine.sole l l' (hback l hl) (hback l' hl')⟩, hother⟩
  rw [FileStore.content, hcontents, ← FileStore.content, content_setContent_of_ne hother.symm,
    hmine.content]

end FileLog

end TwoPhaseCommit
