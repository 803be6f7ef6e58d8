import Mathlib.Data.String.Basic
import TwoPhaseCommit.Proofs.Names

/-!
# Paths and the names they end in

A path is cut at its slashes. What is written behind a path ends up in its last part, so that two
paths of different endings never name the same file (`FileStore.location_ne`), and a file lies in
the directory that its path was joined from (`FileStore.isDirectory_of_join`).
-/

namespace TwoPhaseCommit

namespace Path

open String

variable {name : String}

/-! ### Cuts at slashes -/

lemma splitOnAux_slash (l m r : List Char) (acc : List String) :
    splitOnAux (ofList (l ++ m ++ r)) "/" ⟨utf8Len l⟩ ⟨utf8Len l + utf8Len m⟩ 0 acc =
      acc.reverse ++ (List.splitOnPPrepend (· == '/') r m.reverse).map ofList := by
  have hget : Pos.Raw.get "/" 0 = '/' := by decide
  have hnext : Pos.Raw.next "/" 0 = ⟨1⟩ := by decide
  have hend : Pos.Raw.atEnd "/" ⟨1⟩ = true := by decide
  induction r generalizing l m acc with
  | nil =>
    have hat : Pos.Raw.atEnd (ofList (l ++ m ++ [])) ⟨utf8Len l + utf8Len m⟩ = true := by
      simp only [atEnd_iff, rawEndPos_ofList, utf8Len_append, utf8Len_nil, Pos.Raw.le_iff]
      omega
    rw [splitOnAux, if_pos hat, extract_of_valid]
    simp
  | cons c r ih =>
    have hat : ¬Pos.Raw.atEnd (ofList (l ++ m ++ c :: r)) ⟨utf8Len l + utf8Len m⟩ = true := by
      have hpos := Char.utf8Size_pos c
      simp only [atEnd_iff, rawEndPos_ofList, utf8Len_append, utf8Len_cons, Pos.Raw.le_iff]
      omega
    have hchar := get_of_valid (l ++ m) (c :: r)
    have hbehind := next_of_valid (l ++ m) c r
    rw [utf8Len_append] at hchar hbehind
    rw [splitOnAux, if_neg hat, List.splitOnPPrepend_cons_eq_if, hchar, hbehind, hget, hnext,
      List.headD_cons]
    by_cases hslash : c = '/'
    · subst hslash
      -- the part ends here, and the next one starts behind the slash
      have hone : ('/' : Char).utf8Size = 1 := by decide
      have hback : (⟨utf8Len l + utf8Len m + 1⟩ : Pos.Raw).unoffsetBy ⟨1⟩ =
          ⟨utf8Len l + utf8Len m⟩ := rfl
      rw [beq_self_eq_true, if_pos rfl, if_pos hend, if_pos rfl, hone, hback, extract_of_valid]
      simpa [Nat.add_assoc, hone] using ih (l ++ m ++ ['/']) [] (ofList m :: acc)
    · have hback : (⟨utf8Len l + utf8Len m⟩ : Pos.Raw).unoffsetBy 0 =
          ⟨utf8Len l + utf8Len m⟩ := rfl
      rw [if_neg (by simpa using hslash), if_neg (by simpa using hslash), hback, hbehind]
      simpa [Nat.add_assoc] using ih l (m ++ [c]) acc

lemma splitOn_slash (p : String) : p.splitOn "/" = (p.toList.splitOn '/').map ofList := by
  simpa [String.splitOn, List.splitOn] using splitOnAux_slash [] [] p.toList []

lemma parts_eq (p : String) :
    parts p = ((p.toList.splitOn '/').filter (· ≠ [])).map ofList := by
  rw [parts, splitOn_slash, List.filter_map]
  congr 1
  refine List.filter_congr fun cs _ => ?_
  simp [← ofList_nil]

/-! ### Names behind a path -/

/-- A part of a path: it is not empty and has no slash. -/
structure IsName (name : String) : Prop where
  nonempty : name ≠ ""
  slashless : '/' ∉ name.toList

/-- What has no slash is added to the last part. -/
lemma splitOn_append {cs : List Char} (h : '/' ∉ cs) (p : List Char) :
    ∃ init last, p.splitOn '/' = init ++ [last] ∧ (p ++ cs).splitOn '/' = init ++ [last ++ cs] := by
  induction p with
  | nil => exact ⟨[], [], by simp, by rw [List.nil_append, List.splitOn_eq_singleton h]; rfl⟩
  | cons c p ih =>
    obtain ⟨init, last, hp, happend⟩ := ih
    rw [List.cons_append, List.splitOn_cons_eq_if_modifyHead, List.splitOn_cons_eq_if_modifyHead,
      hp, happend]
    by_cases hc : c = '/'
    · exact ⟨[] :: init, last, by simp [hc], by simp [hc]⟩
    · cases init with
      | nil => exact ⟨[], c :: last, by simp [hc], by simp [hc]⟩
      | cons first init => exact ⟨(c :: first) :: init, last, by simp [hc], by simp [hc]⟩

/-- The last part of a path ends as the path does. -/
lemma getLast?_parts {p : String} {c : Char} (h : p.toList.getLast? = some c) (hc : c ≠ '/') :
    ∃ part, (parts p).getLast? = some part ∧ part.toList.getLast? = some c := by
  obtain ⟨front, hfront⟩ := List.getLast?_eq_some_iff.mp h
  have hslash : '/' ∉ [c] := by simpa using hc.symm
  obtain ⟨init, last, -, happend⟩ := splitOn_append hslash front
  have hlast : [last ++ [c]].filter (· ≠ []) = [last ++ [c]] := by simp
  refine ⟨ofList (last ++ [c]), ?_, by simp⟩
  rw [parts_eq, hfront, happend, List.filter_append, hlast, List.map_append, List.map_singleton,
    List.getLast?_concat]

lemma getLast?_append {c : Char} (h : name.toList.getLast? = some c) (front : String) :
    (front ++ name).toList.getLast? = some c := by
  rw [toList_append, List.getLast?_append, h]
  rfl

/-- A joined path ends as the name does. -/
lemma getLast?_join {c : Char} (h : name.toList.getLast? = some c) (dir : String) :
    (join dir name).toList.getLast? = some c := by
  unfold join
  split
  · exact h
  · split <;> exact getLast?_append h _

lemma getLast?_withFileName {c : Char} (h : name.toList.getLast? = some c) (p : String) :
    (withFileName p name).toList.getLast? = some c := by
  unfold withFileName
  split <;> exact getLast?_join h _

lemma hasTrailingSlash_iff (p : String) :
    hasTrailingSlash p = true ↔ p.toList.getLast? = some '/' := by
  have hends : hasTrailingSlash p = p.toSlice.endsWith "/" := rfl
  rw [hends, Slice.endsWith_string_iff, copy_toSlice, show ("/" : String).toList = ['/'] from rfl,
    List.singleton_suffix_iff_getLast?_eq_some]

lemma IsName.hasTrailingSlash_eq_false (h : IsName name) (front : String) :
    hasTrailingSlash (front ++ name) = false := by
  rw [← Bool.not_eq_true, hasTrailingSlash_iff]
  intro hlast
  rw [toList_append, List.getLast?_append] at hlast
  cases hc : name.toList.getLast? with
  | none => exact h.nonempty (by simpa using hc)
  | some c =>
    rw [hc] at hlast
    obtain rfl : c = '/' := Option.some.inj hlast
    exact h.slashless (List.mem_of_getLast? hc)

lemma IsName.isAbsolute_eq_false (h : IsName name) : isAbsolute name = false := by
  rw [isAbsolute, startsWith_string_eq_false_iff]
  rintro ⟨rest, hrest⟩
  refine h.slashless ?_
  simp [← hrest]

lemma IsName.join_root (h : IsName name) : join "/" name = "/" ++ name := by
  have hslash : hasTrailingSlash "/" = true := (hasTrailingSlash_iff "/").mpr rfl
  rw [join, if_neg (by simp [h.isAbsolute_eq_false]), if_pos (.inr hslash)]

lemma IsName.parts (h : IsName name) : parts name = [name] := by
  rw [parts_eq, List.splitOn_eq_singleton h.slashless,
    List.filter_cons_of_pos (by simpa using h.nonempty)]
  simp

/-- A slash is no part. -/
lemma parts_slash (p q : String) : parts (p ++ "/" ++ q) = parts p ++ parts q := by
  rw [parts_eq, parts_eq, parts_eq, toList_append, toList_append, List.append_assoc,
    show ("/" : String).toList = ['/'] from rfl, List.singleton_append,
    List.splitOn_append_cons_self, List.filter_append, List.map_append]

/-- The parts of a directory and then the name lead to what it holds. -/
lemma parts_join (h : IsName name) (dir : String) :
    Path.parts (join dir name) = Path.parts dir ++ [name] := by
  have hempty : Path.parts "" = [] := by simp [parts_eq]
  rw [join, if_neg (by simp [h.isAbsolute_eq_false])]
  split
  next hdir =>
    rcases hdir with rfl | hslash
    · rw [empty_append, h.parts, hempty, List.nil_append]
    · obtain ⟨d, hd⟩ := List.getLast?_eq_some_iff.mp ((hasTrailingSlash_iff dir).mp hslash)
      have hdir : dir = ofList d ++ "/" := by simp [← toList_inj, hd]
      have hparts := parts_slash (ofList d) ""
      rw [append_empty, hempty, List.append_nil] at hparts
      rw [hdir, parts_slash, h.parts, hparts]
  next => rw [parts_slash, h.parts]

/-- A name stands in the current directory. -/
lemma IsName.parent?_here (h : IsName name) : parent? name = some "" := by
  have hsplit : name.splitOn "/" = [name] := by
    rw [splitOn_slash, List.splitOn_eq_singleton h.slashless]
    simp
  have hprefixes : prefixes name = [(name, name)] := by
    simp [prefixes, hsplit, prefixesFrom, h.nonempty]
  rw [parent?, above, hprefixes, h.isAbsolute_eq_false]
  rfl

lemma IsName.parent?_root (h : IsName name) (hdot : name ≠ ".") :
    parent? (join "/" name) = some "/" := by
  have hsplit : ("/" ++ name).splitOn "/" = ["", name] := by
    rw [splitOn_slash, toList_append, show ("/" : String).toList = [] ++ ['/'] from rfl,
      List.append_assoc, List.singleton_append, List.splitOn_append_cons_self,
      List.splitOn_eq_singleton h.slashless]
    simp
  have hprefixes : prefixes ("/" ++ name) = [(name, "/" ++ name)] := by
    simp [prefixes, hsplit, prefixesFrom, h.nonempty, hdot]
  have habsolute : isAbsolute ("/" ++ name) = true := by
    rw [isAbsolute, startsWith_string_iff, toList_append]
    exact List.prefix_append ..
  rw [h.join_root, parent?, above, hprefixes, habsolute]
  rfl

end Path

namespace FileStore

variable {fs fs' : FileStore} {dir path path' name name' : String} {place place' : Place}
  {id : FileId}

/-! ### Where a path leads -/

/-- What it takes to follow a path: its last part is left, and the others are walked along. -/
lemma approach_ok {trail : Trail} {last : String} (h : fs.approach path = .ok (trail, last)) :
    ¬path.contains '\x00' ∧ ¬path.utf8ByteSize > maxPath ∧
      (Path.parts path = [] ∧ last = "." ∨
        ∃ init, Path.parts path = init ++ [last] ∧ fs.walk [] init = .ok trail) := by
  unfold approach at h
  split at h
  next => cases h
  next hzero =>
    split at h
    next => cases h
    split at h
    next => cases h
    next hlong =>
      refine ⟨hzero, hlong, ?_⟩
      dsimp only at h
      cases hlast : (Path.parts path).getLast? with
      | none =>
        rw [hlast] at h
        cases h
        exact .inl ⟨List.getLast?_eq_none_iff.mp hlast, rfl⟩
      | some part =>
        rw [hlast] at h
        cases hw : fs.walk [] (Path.parts path).dropLast with
        | error e =>
          rw [hw] at h
          cases h
        | ok goal =>
          rw [hw] at h
          cases h
          exact .inr ⟨_, (List.dropLast_append_getLast? _ hlast).symm, hw⟩

/-- Unless it leads to a directory, a path leads to the name that it ends in. -/
lemma getLast?_location (h : fs.locate path = .ok place) (hn : place.node ≠ some .directory) :
    place.location.getLast? = (Path.parts path).getLast? := by
  obtain ⟨⟨trail, last⟩, happroach⟩ := approach_of_locate h
  obtain ⟨-, -, hparts⟩ := approach_ok happroach
  rw [locate, happroach] at h
  simp only [bind, Except.bind] at h
  split at h
  next =>
    cases h
    exact absurd rfl hn
  next hdot =>
    split at h
    next =>
      cases h
      exact absurd rfl hn
    next =>
      split at h
      next => cases h
      next =>
        cases h
        obtain ⟨init, hinit, -⟩ := hparts.resolve_left fun hnone => hdot hnone.2
        rw [List.getLast?_concat, hinit, List.getLast?_concat]

/-- Paths that end differently lead to different names. -/
lemma location_ne {c c' : Char} (hc : path.toList.getLast? = some c)
    (hc' : path'.toList.getLast? = some c') (hslash : c ≠ '/') (hslash' : c' ≠ '/') (hne : c ≠ c')
    (h : fs.locate path = .ok place) (h' : fs'.locate path' = .ok place')
    (hn : place.node ≠ some .directory) (hn' : place'.node ≠ some .directory) :
    place.location ≠ place'.location := by
  intro heq
  obtain ⟨part, hlast, hpart⟩ := Path.getLast?_parts hc hslash
  obtain ⟨part', hlast', hpart'⟩ := Path.getLast?_parts hc' hslash'
  have hsame := getLast?_location h hn
  rw [heq, getLast?_location h' hn', hlast, hlast', Option.some.injEq] at hsame
  rw [hsame, hpart, Option.some.injEq] at hpart'
  exact hne hpart'

/-! ### The root -/

lemma parts_root : Path.parts "/" = [] := by
  rw [Path.parts_eq]
  decide

lemma locate_root (fs : FileStore) : fs.locate "/" = .ok ⟨[], some .directory, true⟩ := by
  have hlong : ¬("/" : String).utf8ByteSize > maxPath := by decide
  have happroach : fs.approach "/" = .ok ([], ".") := by
    rw [approach, parts_root, if_neg (by simp [String.contains_char_eq]), if_neg (by simp),
      if_neg hlong]
    rfl
  rw [locate, happroach]
  rfl

lemma isDirectory_root (fs : FileStore) : fs.isDirectory "/" = true := by
  rw [isDirectory, stat_of_locate fs.locate_root rfl fun hn => absurd rfl hn]

lemma canonical_root (fs : FileStore) : fs.canonical "/" = .ok "/" := by
  rw [canonical, stat_of_locate fs.locate_root rfl fun hn => absurd rfl hn, locate_root]
  rfl

/-- A name that a file or a directory can have. -/
structure IsEntry (name : String) : Prop extends Path.IsName name where
  ne_dot : name ≠ "."
  ne_dots : name ≠ ".."
  zeroless : '\x00' ∉ name.toList
  short : name.utf8ByteSize ≤ maxName

/-- An entry of the root, with a slash in front or without. -/
lemma locate_entry (fs : FileStore) (h : IsEntry name) {front : String}
    (hfront : front = "" ∨ front = "/") :
    fs.locate (front ++ name) = .ok ⟨[name], (fs.root.child? name).map Tree.node, false⟩ := by
  have hparts : Path.parts (front ++ name) = [name] := by
    rcases hfront with rfl | rfl
    · rw [String.empty_append, h.parts]
    · rw [← h.join_root, Path.parts_join h.toIsName, parts_root, List.nil_append]
  have hzero : ¬(front ++ name).contains '\x00' := by
    rcases hfront with rfl | rfl <;> simp [String.contains_char_eq, h.zeroless]
  have hlong : ¬(front ++ name).utf8ByteSize > maxPath := by
    have hone : front.utf8ByteSize ≤ 1 := by
      rcases hfront with rfl | rfl <;> decide
    have hshort := h.short
    rw [String.utf8ByteSize_append]
    unfold maxPath
    unfold maxName at hshort
    omega
  have happroach : fs.approach (front ++ name) = .ok ([], name) := by
    rw [approach, hparts, if_neg hzero, if_neg (by simp [h.nonempty]), if_neg hlong]
    rfl
  rw [locate, happroach]
  simp only [bind, Except.bind]
  rw [if_neg h.ne_dot, if_neg h.ne_dots, if_neg h.short.not_gt, h.hasTrailingSlash_eq_false]
  rfl

lemma locate_here (fs : FileStore) (h : IsEntry name) :
    fs.locate name = .ok ⟨[name], (fs.root.child? name).map Tree.node, false⟩ := by
  have hplace := fs.locate_entry h (.inl rfl)
  rwa [String.empty_append] at hplace

lemma locate_in_root (fs : FileStore) (h : IsEntry name) :
    fs.locate (Path.join "/" name) =
      .ok ⟨[name], (fs.root.child? name).map Tree.node, false⟩ := by
  rw [h.join_root]
  exact fs.locate_entry h (.inr rfl)

lemma openFile_of_child
    (hplace : fs.locate path = .ok ⟨[name], (fs.root.child? name).map Tree.node, false⟩)
    (hchild : fs.root.child? name = some (.file id)) : fs.openFile path = .ok id := by
  refine openFile_of_stat (stat_of_locate hplace ?_ fun _ => rfl)
  rw [hchild]
  rfl

lemma openFile_in_root (h : IsEntry name) (hchild : fs.root.child? name = some (.file id)) :
    fs.openFile (Path.join "/" name) = .ok id :=
  openFile_of_child (fs.locate_in_root h) hchild

/-! ### The directory of a file -/

lemma walk_append (fs : FileStore) (trail : Trail) (ss ts : List String) :
    fs.walk trail (ss ++ ts) = fs.walk trail ss >>= (fs.walk · ts) := by
  fun_induction fs.walk trail ss with
  | case1 => rfl
  | case2 trail ss ih => rw [List.cons_append, walk, ih]
  | case3 trail ss ih => rw [List.cons_append, walk, ih]
  | case4 trail s ss hdot hdots hlong =>
    rw [List.cons_append, walk, if_pos hlong]
    · rfl
    all_goals assumption
  | case5 trail s ss hdot hdots hlong hchild =>
    rw [List.cons_append, walk, if_neg hlong, hchild]
    · rfl
    all_goals assumption
  | case6 trail s ss hdot hdots hlong id hchild =>
    rw [List.cons_append, walk, if_neg hlong, hchild]
    · rfl
    all_goals assumption
  | case7 trail s ss hdot hdots hlong t hdir hchild ih =>
    rw [List.cons_append, walk, if_neg hlong, hchild]
    · cases t with
      | file id => exact absurd rfl (hdir id)
      | directory es => exact ih
    all_goals assumption

/-- Where a walk goes along all the parts of a path, the path leads to a directory. -/
lemma isDirectory_of_walk {trail : Trail} (hzero : ¬path.contains '\x00') (hempty : path ≠ "")
    (hlong : ¬path.utf8ByteSize > maxPath) (h : fs.walk [] (Path.parts path) = .ok trail) :
    fs.isDirectory path = true := by
  -- the last part is looked up apart from the others, and must be walked to as well
  suffices hplace : ∃ place, fs.locate path = .ok place ∧ place.node = some .directory by
    obtain ⟨place, hplace, hnode⟩ := hplace
    rw [isDirectory, stat_of_locate hplace hnode fun hn => absurd rfl hn]
  rw [locate, approach, if_neg hzero, if_neg hempty, if_neg hlong]
  dsimp only
  cases hlast : (Path.parts path).getLast? with
  | none => exact ⟨_, rfl, rfl⟩
  | some last =>
    rw [← List.dropLast_append_getLast? _ hlast, walk_append] at h
    cases hw : fs.walk [] (Path.parts path).dropLast with
    | error e =>
      rw [hw] at h
      cases h
    | ok goal =>
      rw [hw] at h
      simp only [bind, Except.bind, pure, Except.pure] at h ⊢
      by_cases hdot : last = "."
      · exact ⟨_, if_pos hdot, rfl⟩
      by_cases hdots : last = ".."
      · exact ⟨_, by rw [if_neg hdot, if_pos hdots], rfl⟩
      rw [walk] at h
      · split at h
        next => cases h
        next hshort =>
          split at h
          next => cases h
          next => cases h
          next t hdir hchild =>
            refine ⟨_, by rw [if_neg hdot, if_neg hdots, if_neg hshort], ?_⟩
            rw [hchild, Option.map_some, Tree.node_of_not_file hdir]
      · exact hdot
      · exact hdots

/-- A file lies in a directory. -/
lemma isDirectory_of_join (hname : Path.IsName name)
    (h : fs.openFile (Path.join dir name) = .ok id) : dir = "" ∨ fs.isDirectory dir = true := by
  by_cases hempty : dir = ""
  · exact .inl hempty
  right
  -- a part of a path is as free of zeros and as short as the path
  obtain ⟨rest, hjoin⟩ : ∃ rest, Path.join dir name = dir ++ rest := by
    rw [Path.join, if_neg (by simp [hname.isAbsolute_eq_false])]
    split
    · exact ⟨name, rfl⟩
    · exact ⟨"/" ++ name, String.append_assoc ..⟩
  obtain ⟨place, hplace, -⟩ := locate_of_stat (stat_of_openFile h)
  obtain ⟨⟨trail, last⟩, happroach⟩ := approach_of_locate hplace
  obtain ⟨hzero, hlong, hparts⟩ := approach_ok happroach
  rw [Path.parts_join hname] at hparts
  obtain ⟨init, hinit, hw⟩ := hparts.resolve_left (by simp)
  obtain ⟨rfl, -⟩ := List.append_inj' hinit rfl
  rw [hjoin] at hzero hlong
  refine isDirectory_of_walk (mt ?_ hzero) hempty ?_ hw
  · simp +contextual [String.contains_char_eq]
  · rw [String.utf8ByteSize_append] at hlong
    omega

end FileStore

end TwoPhaseCommit
