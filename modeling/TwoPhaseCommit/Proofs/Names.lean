import Mathlib.Data.List.Infix
import TwoPhaseCommit.Proofs.Store

/-!
# Names

A name of a file or a directory is a location in the tree of names. To link or to remove one name
leaves all others as they are (`Tree.node?_set`), and a path is followed by looking at directories
only (`FileStore.walk_keeps`). So a path leads to the same location as before wherever no directory
is lost.
-/

namespace TwoPhaseCommit

namespace Tree

variable {t u : Tree} {new : Option Tree} {a b : List String} {n : Node}

/-- What stands at a location, without what is below it. -/
def node? (t : Tree) (location : List String) : Option Node := (t.get? location).map node

lemma get?_append (t : Tree) (a b : List String) :
    t.get? (a ++ b) = (t.get? a).bind (·.get? b) := by
  induction a generalizing t with
  | nil => rw [List.nil_append, get?_nil, Option.bind_some]
  | cons name names ih =>
    rw [List.cons_append, get?_cons, get?_cons]
    cases t.child? name with
    | none => rfl
    | some u => exact ih u

lemma node?_cons (t : Tree) (name : String) (names : List String) :
    t.node? (name :: names) = (t.child? name).bind (·.node? names) := by
  rw [node?, get?_cons]
  cases t.child? name <;> rfl

lemma node_of_not_file (h : ∀ id, t = file id → False) : t.node = .directory := by
  cases t with
  | file id => exact (h id rfl).elim
  | directory es => rfl

lemma node_of_child? {name : String} (h : t.child? name = some u) : t.node = .directory := by
  cases t with
  | file id => cases h
  | directory es => rfl

/-- Whatever has something below it is a directory. -/
lemma node?_of_append (h : t.node? (a ++ b) = some n) (hb : b ≠ []) :
    t.node? a = some .directory := by
  rw [node?, get?_append] at h
  cases ha : t.get? a with
  | none =>
    rw [ha] at h
    cases h
  | some u =>
    cases b with
    | nil => exact absurd rfl hb
    | cons name names =>
      rw [ha, Option.bind_some, ← node?, node?_cons] at h
      cases hc : u.child? name with
      | none =>
        rw [hc] at h
        cases h
      | some v => rw [node?, ha, Option.map_some, node_of_child? hc]

lemma node_setChild (t : Tree) (name : String) (new : Option Tree) :
    (t.setChild name new).node = t.node := by
  cases t <;> rfl

/-- What is replaced is below the root. -/
lemma node_set {location : List String} (hne : location ≠ []) :
    (t.set new location).node = t.node := by
  fun_cases set new location t with
  | case1 => exact absurd rfl hne
  | case2 t name => exact node_setChild ..
  | case3 => rfl
  | case4 => exact node_setChild ..

/-- Below one name of a directory something changes. -/
lemma node?_setChild (h : t.node = .directory) (name : String) (q : String) (qs : List String) :
    (t.setChild name new).node? (q :: qs) =
      if q = name then new.bind (·.node? qs) else t.node? (q :: qs) := by
  cases t with
  | file id => cases h
  | directory es =>
    rw [node?_cons, child?_setChild, node?_cons]
    split <;> rfl

/-- A name in a directory comes to stand for something with nothing below it, or for nothing. -/
lemma node?_set (hnew : ∀ u, new = some u → ∀ name, u.child? name = none) {location : List String}
    (hne : location ≠ []) (hp : t.node? location.dropLast = some .directory) (q : List String) :
    (t.set new location).node? q =
      if q = location then new.map node else if location <+: q then none else t.node? q := by
  -- only what is put there can be found at the location, and nothing below it
  have hbelow : ∀ qs, new.bind (·.node? qs) = if qs = [] then new.map node else none := by
    intro qs
    cases new with
    | none => simp
    | some u =>
      cases qs with
      | nil => simp [node?]
      | cons name names => simp [node?_cons, hnew u rfl name]
  induction location generalizing t q with
  | nil => exact absurd rfl hne
  | cons name names ih =>
    cases q with
    | nil =>
      rw [if_neg nofun, if_neg (by simp), node?, node?, get?_nil, get?_nil, Option.map_some,
        Option.map_some, node_set (by simp)]
    | cons p ps =>
      cases names with
      | nil =>
        rw [set, node?_setChild (by simpa [node?] using hp), hbelow]
        by_cases hpn : p = name
        · subst hpn
          by_cases hps : ps = [] <;> simp [hps]
        · simp [hpn, Ne.symm hpn]
      | cons name' names' =>
        rw [List.dropLast_cons_cons, node?_cons] at hp
        cases hc : t.child? name with
        | none =>
          rw [hc] at hp
          cases hp
        | some u =>
          rw [hc, Option.bind_some] at hp
          rw [set, hc]
          · dsimp only
            rw [node?_setChild (node_of_child? hc), Option.bind_some]
            by_cases hpn : p = name
            · subst hpn
              rw [if_pos rfl, ih (by simp) hp, node?_cons, hc]
              simp [List.cons_prefix_cons]
            · rw [if_neg hpn]
              simp [hpn, Ne.symm hpn]
          · exact nofun

end Tree

lemma Trail.location_cons (name : String) (t : Tree) (trail : Trail) :
    Trail.location ((name, t) :: trail) = trail.location ++ [name] := by
  simp [location]

lemma Trail.location_tail (trail : Trail) :
    Trail.location trail.tail = trail.location.dropLast := by
  simp [location, List.map_tail, ← List.dropLast_reverse]

namespace FileStore

variable {fs fs' : FileStore} {path : String} {place : Place} {n : Node} {trail trail' : Trail}
  {location : List String} {id : FileId}

/-! ### Locations -/

/-- What a location refers to. -/
def node? (fs : FileStore) (location : List String) : Option Node := fs.root.node? location

/-- A trail that leads through the directories of the store. -/
def Leads (fs : FileStore) : Trail → Prop
  | [] => fs.root.node = .directory
  | (name, t) :: trail =>
    fs.Leads trail ∧ (fs.here trail).child? name = some t ∧ t.node = .directory

lemma Leads.node_here (h : fs.Leads trail) : (fs.here trail).node = .directory := by
  cases trail with
  | nil => exact h
  | cons => exact h.2.2

lemma Leads.tail (h : fs.Leads trail) : fs.Leads trail.tail := by
  cases trail with
  | nil => exact h
  | cons => exact h.1

lemma Leads.get? (h : fs.Leads trail) : fs.root.get? trail.location = some (fs.here trail) := by
  induction trail with
  | nil => exact Tree.get?_nil _
  | cons step trail ih =>
    obtain ⟨hl, hc, -⟩ := h
    rw [Trail.location_cons, Tree.get?_append, ih hl, Option.bind_some, Tree.get?_cons, hc]
    exact Tree.get?_nil _

lemma Leads.node? (h : fs.Leads trail) : fs.node? trail.location = some .directory := by
  rw [FileStore.node?, Tree.node?, h.get?, Option.map_some, h.node_here]

/-- What stands under a name at the end of a trail. -/
lemma Leads.node?_child (h : fs.Leads trail) (name : String) :
    fs.node? (trail.location ++ [name]) = ((fs.here trail).child? name).map Tree.node := by
  rw [FileStore.node?, Tree.node?, Tree.get?_append, h.get?, Option.bind_some, Tree.get?_cons]
  cases (fs.here trail).child? name <;> rfl

/-! ### Paths -/

/-- No directory is lost. -/
def Keeps (fs fs' : FileStore) : Prop :=
  ∀ location, fs.node? location = some .directory → fs'.node? location = some .directory

@[refl] lemma Keeps.refl (fs : FileStore) : fs.Keeps fs := fun _ h => h

lemma Keeps.trans {fs'' : FileStore} (h : fs.Keeps fs') (h' : fs'.Keeps fs'') : fs.Keeps fs'' :=
  fun l hl => h' l (h l hl)

/-- A walk looks at directories only. -/
lemma walk_keeps (hk : fs.Keeps fs') {steps : List String} {goal : Trail} (h : fs.Leads trail)
    (h' : fs'.Leads trail') (hl : trail'.location = trail.location)
    (hw : fs.walk trail steps = .ok goal) :
    fs.Leads goal ∧ ∃ goal', fs'.walk trail' steps = .ok goal' ∧ fs'.Leads goal' ∧
      goal'.location = goal.location := by
  fun_induction fs.walk trail steps generalizing trail' with
  | case1 trail =>
    cases hw
    exact ⟨h, trail', by rw [walk], h', hl⟩
  | case2 trail ss ih =>
    rw [walk]
    exact ih h h' hl hw
  | case3 trail ss ih =>
    rw [walk]
    exact ih h.tail h'.tail (by rw [Trail.location_tail, Trail.location_tail, hl]) hw
  | case4 => cases hw
  | case5 => cases hw
  | case6 => cases hw
  | case7 trail s ss hdot hdots hlong t hdir hchild ih =>
    have ht := Tree.node_of_not_file hdir
    -- the directory that was entered is there still, though it may hold more
    have hnode : fs'.node? (trail'.location ++ [s]) = some .directory := by
      rw [hl]
      refine hk _ ?_
      rw [h.node?_child, hchild, Option.map_some, ht]
    rw [h'.node?_child, Option.map_eq_some_iff] at hnode
    obtain ⟨t', hchild', ht'⟩ := hnode
    have hleads' : fs'.Leads ((s, t') :: trail') := ⟨h', hchild', ht'⟩
    obtain ⟨hgoal, goal', hw', hleads, hloc⟩ := ih ⟨h, hchild, ht⟩ hleads'
      (by rw [Trail.location_cons, Trail.location_cons, hl]) hw
    refine ⟨hgoal, goal', ?_, hleads, hloc⟩
    rw [walk, if_neg hlong, hchild'] <;> try assumption
    cases t' with
    | file id => cases ht'
    | directory es => exact hw'

/-- A path is followed up to its last component as long as no directory is lost. -/
lemma approach_keeps (hroot : fs.node? [] = some .directory) (hk : fs.Keeps fs') {last : String}
    (h : fs.approach path = .ok (trail, last)) :
    fs.Leads trail ∧ ∃ trail', fs'.approach path = .ok (trail', last) ∧ fs'.Leads trail' ∧
      trail'.location = trail.location := by
  -- every walk starts at the root, also that of a relative path
  have hstart : ∀ {fs : FileStore}, fs.node? [] = some .directory → fs.Leads [] := by
    intro fs h
    rw [node?, Tree.node?, Tree.get?_nil] at h
    exact Option.some.inj h
  unfold approach at h ⊢
  split at h
  next => cases h
  split at h
  next => cases h
  split at h
  next => cases h
  next hzero hempty hlong =>
    rw [if_neg hzero, if_neg hempty, if_neg hlong]
    dsimp only at h ⊢
    cases hlast : (Path.parts path).getLast? with
    | none =>
      rw [hlast] at h
      cases h
      exact ⟨hstart hroot, [], rfl, hstart (hk _ hroot), rfl⟩
    | some last =>
      rw [hlast] at h
      dsimp only at h ⊢
      cases hw : fs.walk [] (Path.parts path).dropLast with
      | error e =>
        rw [hw] at h
        cases h
      | ok goal =>
        rw [hw] at h
        cases h
        obtain ⟨hgoal, goal', hw', hleads, hloc⟩ :=
          walk_keeps hk (hstart hroot) (hstart (hk _ hroot)) rfl hw
        exact ⟨hgoal, goal', by rw [hw']; rfl, hleads, hloc⟩

/-- A path leads to the same location as long as no directory is lost. -/
lemma locate_keeps (hroot : fs.node? [] = some .directory) (hk : fs.Keeps fs')
    (h : fs.locate path = .ok place) :
    fs'.locate path = .ok { place with node := fs'.node? place.location } ∧
      (place.node ≠ some .directory →
        place.location ≠ [] ∧ fs.node? place.location.dropLast = some .directory) := by
  obtain ⟨⟨trail, last⟩, happroach⟩ := approach_of_locate h
  obtain ⟨hleads, trail', happroach', hleads', hloc⟩ := approach_keeps hroot hk happroach
  rw [locate, happroach] at h
  rw [locate, happroach']
  simp only [bind, Except.bind] at h ⊢
  split at h
  next hdot =>
    cases h
    refine ⟨?_, fun hne => absurd rfl hne⟩
    rw [if_pos hdot, ← hloc, hleads'.node?]
    rfl
  next hdot =>
    rw [if_neg hdot]
    split at h
    next hdots =>
      cases h
      refine ⟨?_, fun hne => absurd rfl hne⟩
      have htail : Trail.location trail'.tail = Trail.location trail.tail := by
        rw [Trail.location_tail, Trail.location_tail, hloc]
      rw [if_pos hdots, ← htail, hleads'.tail.node?]
      rfl
    next hdots =>
      rw [if_neg hdots]
      split at h
      next => cases h
      next hlong =>
        cases h
        rw [if_neg hlong, ← hleads'.node?_child, hloc]
        refine ⟨rfl, fun _ => ⟨by simp, ?_⟩⟩
        rw [List.dropLast_concat]
        exact hleads.node?

lemma node_of_locate (hroot : fs.node? [] = some .directory) (h : fs.locate path = .ok place) :
    place.node = fs.node? place.location := by
  have hself := (locate_keeps hroot (.refl fs) h).1
  rw [h] at hself
  exact congrArg Place.node (Except.ok.inj hself)

/-- A path to nothing ends in a directory. -/
lemma vacant_of_locate (hroot : fs.node? [] = some .directory) (h : fs.locate path = .ok place)
    (hnode : place.node = none) :
    place.location ≠ [] ∧ fs.node? place.location.dropLast = some .directory ∧
      fs.node? place.location = none := by
  obtain ⟨hne, hp⟩ := (locate_keeps hroot (.refl fs) h).2 (by simp [hnode])
  exact ⟨hne, hp, (node_of_locate hroot h).symm.trans hnode⟩

lemma stat_of_locate (h : fs.locate path = .ok place) (hn : place.node = some n)
    (honly : n ≠ .directory → place.directoryOnly = false) : fs.stat path = .ok n := by
  rw [stat, h]
  simp only [bind, Except.bind, hn]
  cases n with
  | directory => rfl
  | file id =>
    rw [honly (by simp)]
    rfl

/-- What stands at a path stays there, if no directory is lost and no name of it. -/
lemma stat_keeps (hroot : fs.node? [] = some .directory) (hk : fs.Keeps fs')
    (hn : ∀ l, fs.node? l = some n → fs'.node? l = some n) (h : fs.stat path = .ok n) :
    fs'.stat path = .ok n := by
  obtain ⟨place, hplace, hnode, honly⟩ := locate_of_stat h
  refine stat_of_locate (locate_keeps hroot hk hplace).1 (hn _ ?_) honly
  rw [← node_of_locate hroot hplace, hnode]

lemma isDirectory_keeps (hroot : fs.node? [] = some .directory) (hk : fs.Keeps fs')
    (h : fs.isDirectory path = true) : fs'.isDirectory path = true := by
  rw [isDirectory, stat_keeps hroot hk hk (stat_of_isDirectory h)]

lemma openFile_of_stat (h : fs.stat path = .ok (.file id)) : fs.openFile path = .ok id := by
  rw [openFile, h]
  rfl

/-! ### Changes of one name -/

/-- One name has come to stand for something new, or for nothing. -/
def Renames (fs : FileStore) (location : List String) (n : Option Node) (fs' : FileStore) : Prop :=
  ∀ q, fs'.node? q = if q = location then n else if location <+: q then none else fs.node? q

lemma renames_link (hne : location ≠ []) (hp : fs.node? location.dropLast = some .directory)
    (n : Node) : fs.Renames location (some n) (fs.link location n) := by
  intro q
  cases n with
  | directory => exact Tree.node?_set (by rintro u ⟨⟩ name; rfl) hne hp q
  | file id => exact Tree.node?_set (by rintro u ⟨⟩ name; rfl) hne hp q

lemma renames_unlink (hne : location ≠ []) (hp : fs.node? location.dropLast = some .directory) :
    fs.Renames location none (fs.unlink location) :=
  fun q => Tree.node?_set (by rintro u ⟨⟩) hne hp q

variable {m : Option Node}

lemma Renames.self (h : fs.Renames location m fs') : fs'.node? location = m := by
  rw [h, if_pos rfl]

/-- What stands elsewhere stays, unless it is below what was there. -/
lemma Renames.other (h : fs.Renames location m fs') (hd : fs.node? location ≠ some .directory)
    {q : List String} (hq : q ≠ location) (hn : fs.node? q = some n) : fs'.node? q = some n := by
  rw [h, if_neg hq]
  split
  next hpre =>
    obtain ⟨rest, rfl⟩ := hpre
    exact absurd (Tree.node?_of_append hn (by rintro rfl; simp at hq)) hd
  next => exact hn

lemma Renames.keeps (h : fs.Renames location m fs') (hd : fs.node? location ≠ some .directory) :
    fs.Keeps fs' := by
  intro q hq
  exact h.other hd (by rintro rfl; exact hd hq) hq

/-- To remove a name makes no directory. -/
lemma Renames.ne_directory (h : fs.Renames location none fs') {q : List String}
    (hq : fs.node? q ≠ some .directory) : fs'.node? q ≠ some .directory := by
  rw [h]
  split
  next => simp
  next =>
    split
    next => simp
    next => exact hq

/-- What was put at the end of a path is found there. -/
lemma Renames.stat (h : fs.Renames place.location (some n) fs')
    (hroot : fs.node? [] = some .directory) (hd : fs.node? place.location ≠ some .directory)
    (hplace : fs.locate path = .ok place) (honly : n ≠ .directory → place.directoryOnly = false) :
    fs'.stat path = .ok n :=
  stat_of_locate (locate_keeps hroot (h.keeps hd) hplace).1 h.self honly

/-- A store as it comes to be: every file that has a name has a content, too. -/
structure WellFormed (fs : FileStore) : Prop where
  root : fs.node? [] = some .directory
  contents : ∀ location id, fs.node? location = some (.file id) → id < fs.contents.size

lemma WellFormed.congr (h : fs.WellFormed) (hr : fs'.root = fs.root)
    (hs : fs.contents.size ≤ fs'.contents.size) : fs'.WellFormed := by
  have hn : ∀ l, fs'.node? l = fs.node? l := fun l => by rw [node?, hr, node?]
  exact ⟨(hn []).trans h.root, fun l id hl => (h.contents l id ((hn l).symm.trans hl)).trans_le hs⟩

lemma WellFormed.renames (h : fs.WellFormed) (hne : location ≠ [])
    (hr : fs.Renames location m fs') (hs : fs.contents.size ≤ fs'.contents.size)
    (hm : ∀ id, m = some (.file id) → id < fs'.contents.size) : fs'.WellFormed where
  root := by
    rw [hr, if_neg hne.symm, if_neg (by simpa using hne)]
    exact h.root
  contents l id hl := by
    rw [hr] at hl
    split at hl
    next => exact hm id hl
    next =>
      split at hl
      next => cases hl
      next => exact (h.contents l id hl).trans_le hs

lemma WellFormed.lt_size (h : fs.WellFormed) (ho : fs.openFile path = .ok id) :
    id < fs.contents.size := by
  obtain ⟨place, hplace, hnode, -⟩ := locate_of_stat (stat_of_openFile ho)
  exact h.contents place.location id ((node_of_locate h.root hplace).symm.trans hnode)

end FileStore

/-! ### Programs that change names -/

namespace FileM

open FileStore

variable {fs fs' : FileStore} {path source target : String} {id old : FileId}

/-- An error about what is there is passed over if it is a directory. -/
lemma exec_unless_ok {e : IoError}
    (h : (do unless (← get).isDirectory path do throw e : FileM IoError Unit).exec fs =
      (.ok (), fs')) : fs' = fs ∧ fs.isDirectory path = true := by
  rw [exec_bind_of_ok _ exec_get] at h
  cases hd : fs.isDirectory path with
  | true =>
    rw [hd] at h
    cases h
    exact ⟨rfl, rfl⟩
  | false =>
    rw [hd] at h
    cases h

/-- A directory is made, or nothing changes. -/
lemma makeDirectory_cases (h : fs.WellFormed) (path : String) :
    (∃ e, (makeDirectory path).exec fs = (.error e, fs)) ∨
    ∃ fs', (makeDirectory path).exec fs = (.ok (), fs') ∧ fs'.WellFormed ∧
      fs'.isDirectory path = true := by
  rw [makeDirectory]
  cases hplace : fs.locate path with
  | error e => exact .inl ⟨e, exec_bind_of_error _ (by rw [exec_ask, hplace])⟩
  | ok place =>
    rw [exec_bind_of_ok _ (exec_ask_of_ok hplace)]
    cases hnode : place.node with
    | some n => exact .inl ⟨_, rfl⟩
    | none =>
      right
      obtain ⟨hne, hp, hvacant⟩ := vacant_of_locate h.root hplace hnode
      have hr := renames_link hne hp .directory
      refine ⟨_, exec_modify _, h.renames hne hr le_rfl (by simp), ?_⟩
      rw [isDirectory, hr.stat h.root (by simp [hvacant]) hplace fun hn => absurd rfl hn]

/-- When directories were made, the first of them is there. -/
lemma makeNested_ok (h : fs.WellFormed) {paths : List String}
    (hm : (makeNested paths).exec fs = (.ok (), fs')) :
    fs'.WellFormed ∧ ∀ path, paths.head? = some path → fs'.isDirectory path = true := by
  induction paths generalizing fs fs' with
  | nil =>
    cases hm
    exact ⟨h, nofun⟩
  | cons path above ih =>
    rw [makeNested, exec_bind_of_ok _ (exec_observing ..)] at hm
    rcases makeDirectory_cases h path with ⟨e, he⟩ | ⟨fs₁, hmake, h₁, hd⟩
    · rw [he] at hm
      dsimp only at hm
      split at hm
      next hok => cases hok
      -- something above it is missing, and is made first
      next heq =>
        rw [exec_bind] at hm
        split at hm
        next u fs₁ habove =>
          obtain ⟨h₁, -⟩ := ih h habove
          rw [exec_bind_of_ok _ (exec_observing ..)] at hm
          rcases makeDirectory_cases h₁ path with ⟨e₁, he₁⟩ | ⟨fs₂, hmake, h₂, hd⟩
          · rw [he₁] at hm
            obtain ⟨rfl, hd⟩ := exec_unless_ok hm
            exact ⟨h₁, by rintro p ⟨⟩; exact hd⟩
          · rw [hmake] at hm
            cases hm
            exact ⟨h₂, by rintro p ⟨⟩; exact hd⟩
        next => cases hm
      -- the directory was there already
      next =>
        obtain ⟨rfl, hd⟩ := exec_unless_ok hm
        exact ⟨h, by rintro p ⟨⟩; exact hd⟩
    · rw [hmake] at hm
      cases hm
      exact ⟨h₁, by rintro p ⟨⟩; exact hd⟩

lemma makeTree_ok (h : fs.WellFormed) {dir : String} (hm : (makeTree dir).exec fs = (.ok (), fs')) :
    fs'.WellFormed ∧ (dir = "" ∨ fs'.isDirectory dir = true) := by
  rw [makeTree] at hm
  split at hm
  next hempty =>
    cases hm
    exact ⟨h, .inl hempty⟩
  next =>
    obtain ⟨h', hd⟩ := makeNested_ok h hm
    exact ⟨h', .inr (hd dir rfl)⟩

/-- A file is open: it was there, or it is new and empty. -/
structure Opens (fs : FileStore) (path : String) (id : FileId) (fs' : FileStore) : Prop where
  wellFormed : fs'.WellFormed
  names : ∀ location n, fs.node? location = some n → fs'.node? location = some n
  openFile : fs'.openFile path = .ok id
  origin : fs.openFile path = .ok id ∨ fs'.content id = []

lemma Opens.keeps (h : Opens fs path id fs') : fs.Keeps fs' := fun l => h.names l _

/-- Where nothing was a new file is put. -/
lemma opens_new (h : fs.WellFormed) {place : Place} (hplace : fs.locate path = .ok place)
    (hnode : place.node = none) (honly : place.directoryOnly = false) :
    Opens fs path fs.contents.size
      { fs.link place.location (.file fs.contents.size) with
        contents := fs.contents.push [] } := by
  obtain ⟨hne, hp, hvacant⟩ := vacant_of_locate h.root hplace hnode
  let made : FileStore :=
    { fs.link place.location (.file fs.contents.size) with contents := fs.contents.push [] }
  have hr : fs.Renames place.location (some (.file fs.contents.size)) made :=
    renames_link hne hp (.file fs.contents.size)
  have hd : fs.node? place.location ≠ some .directory := by simp [hvacant]
  have hsize : made.contents.size = fs.contents.size + 1 := Array.size_push ..
  refine ⟨h.renames hne hr ?_ ?_, fun l n hl => ?_, ?_, .inr ?_⟩
  · rw [hsize]
    exact Nat.le_succ _
  · rintro id ⟨⟩
    rw [hsize]
    exact Nat.lt_succ_self _
  · exact hr.other hd (by rintro rfl; rw [hvacant] at hl; cases hl) hl
  · exact openFile_of_stat (hr.stat h.root hd hplace fun _ => honly)
  · simp [content]

/-- A file is opened, or made where nothing was, or nothing changes. -/
lemma exec_openOrCreate_cases (fs : FileStore) (path : String) :
    (∃ e, (openOrCreate path).exec fs = (.error e, fs)) ∨
    (∃ id, (openOrCreate path).exec fs = (.ok id, fs) ∧ fs.openFile path = .ok id) ∨
    ∃ place, fs.locate path = .ok place ∧ place.node = none ∧ place.directoryOnly = false ∧
      (openOrCreate path).exec fs = (.ok fs.contents.size,
        { fs.link place.location (.file fs.contents.size) with
          contents := fs.contents.push [] }) := by
  rw [openOrCreate]
  cases happroach : fs.approach path with
  | error e =>
    refine .inl ⟨e, exec_bind_of_error _ ?_⟩
    rw [show (discard (ask (·.approach path)) : FileM IoError Unit) =
      ask (·.approach path) >>= fun _ => pure () from rfl]
    exact exec_bind_of_error _ (by rw [exec_ask, happroach])
  | ok a =>
    rw [exec_bind_of_ok _ (exec_discard (exec_ask_of_ok happroach))]
    cases hslash : Path.hasTrailingSlash path with
    | true => exact .inl ⟨_, rfl⟩
    | false =>
      simp only [Bool.false_eq_true, if_false]
      cases hplace : fs.locate path with
      | error e => exact .inl ⟨e, exec_bind_of_error _ (by rw [exec_ask, hplace])⟩
      | ok place =>
        rw [exec_bind_of_ok _ (exec_ask_of_ok hplace)]
        have honly : place.node ≠ some .directory → place.directoryOnly = false := fun hne =>
          (directoryOnly_of_locate hplace hne).trans hslash
        rcases hnode : place.node with _ | _ | id
        · exact .inr (.inr ⟨place, rfl, hnode, honly (by simp [hnode]), rfl⟩)
        · exact .inl ⟨_, rfl⟩
        · exact .inr (.inl ⟨id, rfl, openFile_of_stat
            (stat_of_locate hplace hnode fun _ => honly (by simp [hnode]))⟩)

/-- A file is opened or made, or nothing changes. -/
lemma openOrCreate_cases (h : fs.WellFormed) (path : String) :
    (∃ e, (openOrCreate path).exec fs = (.error e, fs)) ∨
    ∃ id fs', (openOrCreate path).exec fs = (.ok id, fs') ∧ Opens fs path id fs' := by
  rcases exec_openOrCreate_cases fs path with he | ⟨id, hx, ho⟩ | ⟨place, hplace, hnode, honly, hx⟩
  · exact .inl he
  · exact .inr ⟨id, fs, hx, h, fun _ _ hl => hl, ho, .inl ho⟩
  · exact .inr ⟨_, _, hx, opens_new h hplace hnode honly⟩

/-- First the old name is removed, then the new one is given. -/
lemma exec_rename (h : fs.WellFormed) (hs : fs.openFile source = .ok id)
    (ht : fs.openFile target = .ok old) :
    ∃ place goal, fs.locate source = .ok place ∧ fs.locate target = .ok goal ∧
      fs.node? place.location = some (.file id) ∧ fs.node? goal.location = some (.file old) ∧
      goal.directoryOnly = false ∧ place.location ≠ [] ∧ goal.location ≠ [] ∧
      fs.Renames place.location none (fs.unlink place.location) ∧
      (fs.unlink place.location).Renames goal.location (some (.file id))
        ((fs.unlink place.location).link goal.location (.file id)) ∧
      (rename source target).exec fs =
        (.ok (), (fs.unlink place.location).link goal.location (.file id)) := by
  obtain ⟨place, hplace, hnode, -⟩ := locate_of_stat (stat_of_openFile hs)
  obtain ⟨goal, hgoal, hold, honly⟩ := locate_of_stat (stat_of_openFile ht)
  obtain ⟨hne, hp⟩ := (locate_keeps h.root (.refl fs) hplace).2 (by simp [hnode])
  obtain ⟨hne', hp'⟩ := (locate_keeps h.root (.refl fs) hgoal).2 (by simp [hold])
  have hfile := (node_of_locate h.root hplace).symm.trans hnode
  -- a file is taken away, so that the directory of the target is not lost
  have hr := renames_unlink hne hp
  have hkeeps := hr.keeps (by simp [hfile])
  refine ⟨place, goal, hplace, hgoal, hfile, (node_of_locate h.root hgoal).symm.trans hold,
    honly nofun, hne, hne', hr, renames_link hne' (hkeeps _ hp') (.file id), ?_⟩
  rw [rename, exec_bind_of_ok _ (exec_ask_of_ok hs), exec_bind_of_ok _ (exec_ask_of_ok hplace),
    exec_bind_of_ok _ (exec_ask_of_ok hgoal), hold, honly nofun]
  rfl

/-- A file takes the name of another one. -/
lemma rename_ok (h : fs.WellFormed) (hs : fs.openFile source = .ok id)
    (ht : fs.openFile target = .ok old) :
    ∃ fs', (rename source target).exec fs = (.ok (), fs') ∧ fs'.WellFormed ∧ fs.Keeps fs' ∧
      fs'.openFile target = .ok id ∧ fs'.contents = fs.contents := by
  obtain ⟨place, goal, hplace, hgoal, hfile, hold, honly, hne, hne', hr, hr', hexec⟩ :=
    exec_rename h hs ht
  have hkeeps := hr.keeps (by simp [hfile])
  have h₁ := h.renames hne hr le_rfl (by simp)
  have hkeeps' := hr'.keeps (hr.ne_directory (by simp [hold]))
  have hlt := h.lt_size hs
  exact ⟨_, hexec, h₁.renames hne' hr' le_rfl (by rintro _ ⟨⟩; exact hlt), hkeeps.trans hkeeps',
    openFile_of_stat (stat_of_locate (locate_keeps h.root (hkeeps.trans hkeeps') hgoal).1
      hr'.self fun _ => honly), rfl⟩

end FileM

end TwoPhaseCommit
