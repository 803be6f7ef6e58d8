import TwoPhaseCommit.Proofs.Frame

/-!
# What a scan finds

Which records a scan finds depends on the bytes alone and not on the offset at which they lie. It is
computed frame by frame: whole frames give their records, and what follows them is scanned as if it
stood alone.
-/

namespace TwoPhaseCommit

/-- A number that is not zero has a byte that is not. -/
lemma Bytes.exists_ne_zero {bs : Bytes} (h : Bytes.toNat bs ≠ 0) : ∃ b ∈ bs, b ≠ 0 := by
  induction bs with
  | nil => exact absurd rfl h
  | cons b bs ih =>
    by_cases hb : b = 0
    · subst hb
      have hrest : Bytes.toNat bs ≠ 0 := by
        intro hzero
        exact h (by simp [Bytes.toNat, hzero])
      obtain ⟨x, hx, hne⟩ := ih hrest
      exact ⟨x, List.mem_cons_of_mem _ hx, hne⟩
    · exact ⟨b, List.mem_cons_self .., hb⟩

namespace LogScan

variable {buf bs rest : Bytes} {offset n needed : Nat} {d : Damage} {r : LogRecord}
  {rs qs : List LogRecord}

/-! ### Damage and torn appends -/

lemma scanFrom_of_corruption {c : Corruption}
    (h : Frame.decode buf offset = .error (.corruption c)) :
    scanFrom offset buf =
      if isTorn buf then .ok ⟨[], offset, buf.length⟩ else .error (.corruption c) := by
  cases buf with
  | nil =>
    rw [Frame.decode] at h
    cases h
  | cons b bs =>
    rw [scanFrom]
    split
    next h' =>
      rw [h] at h'
      cases h'
    next h' =>
      rw [h] at h'
      cases h'
    next h' =>
      rw [h] at h'
      cases h'
      rfl
    next hnot h' =>
      rw [h] at h'
      cases h'
      exact (hnot _ rfl).elim

/-- Unless there are only zeros, damage is torn if its length field says that nothing follows. -/
lemma isTorn_iff (hfour : 4 ≤ buf.length) (hb : ∃ b ∈ buf, b ≠ 0) :
    isTorn buf = true ↔ buf.length ≤ 4 + Bytes.toNat (buf.take 4) := by
  have hzeros : buf.all (· == 0) = false := by
    rw [List.all_eq_false]
    obtain ⟨b, hmem, hne⟩ := hb
    exact ⟨b, hmem, by simpa using hne⟩
  rw [isTorn, Frame.declared?, if_neg (by omega), hzeros]
  simp

/-- A whole frame that cannot be read is torn if nothing follows it. -/
lemma isTorn_whole_iff (h : Frame.Whole bs) : isTorn (bs ++ rest) = true ↔ rest = [] := by
  obtain ⟨hmin, hlength⟩ := h
  unfold Frame.minimum at hmin
  have hfield : (bs ++ rest).take 4 = bs.take 4 := List.take_append_of_le_length (by omega)
  obtain ⟨b, hb, hne⟩ := Bytes.exists_ne_zero (show Bytes.toNat (bs.take 4) ≠ 0 by omega)
  rw [isTorn_iff (by rw [List.length_append]; omega)
    ⟨b, List.mem_append_left _ (List.mem_of_mem_take hb), hne⟩, hfield, ← hlength,
    List.length_append, ← List.length_eq_zero_iff]
  omega

/-- What is incomplete is torn. -/
lemma isTorn_of_incomplete
    (h : Frame.decode buf offset = .error (.incomplete offset buf.length needed)) :
    isTorn buf = true := by
  by_cases hfour : buf.length < 4
  · simp [isTorn, Frame.declared?, hfour]
  have hend : buf.length < 4 + Bytes.toNat (buf.take 4) := by
    rw [Frame.decode, if_neg hfour] at h
    dsimp only at h
    repeat' split at h
    all_goals try cases h
    assumption
  simp [isTorn, Frame.declared?, hfour, hend.le]

/-! ### Scans of several frames -/

/-- Whole frames are read, and the scan goes on behind them. -/
lemma scanFrom_frames (h : ∀ q ∈ rs, Frame.Fits q) (offset : Nat) (rest : Bytes) :
    scanFrom offset (frames rs ++ rest) =
      (scanFrom (offset + (frames rs).length) rest).map
        fun s => { s with records := rs ++ s.records } := by
  induction rs generalizing offset with
  | nil =>
    rw [frames_nil, List.nil_append, List.length_nil, Nat.add_zero]
    cases scanFrom offset rest <;> rfl
  | cons q qs ih =>
    rw [List.forall_mem_cons] at h
    have hdecode := Frame.decode_encode h.1 (frames qs ++ rest) offset
    rw [frames_cons, List.append_assoc, scanFrom_of_decode hdecode, List.drop_left, ih h.2,
      List.length_append, Nat.add_assoc]
    cases scanFrom (offset + ((Frame.encode q).length + (frames qs).length)) rest <;> rfl

lemma scan_frames_append (h : ∀ q ∈ rs, Frame.Fits q) (rest : Bytes) :
    scan (frames rs ++ rest) =
      (scanFrom (frames rs).length rest).map fun s => { s with records := rs ++ s.records } := by
  rw [scan, scanFrom_frames h, Nat.zero_add]

/-- A scan reads the same records from the part that it calls valid, where nothing is torn. -/
lemma Reads.take {s : LogScan} (h : Reads offset buf s) :
    scanFrom offset (buf.take (s.validLength - offset)) = .ok ⟨s.records, s.validLength, 0⟩ := by
  induction h with
  | stop offset buf => rw [Nat.sub_self, List.take_zero, scanFrom]
  | @frame offset n buf r s hdecode h ih =>
    obtain ⟨hle, -⟩ := h.length_eq
    obtain ⟨hn, hframe⟩ := Frame.decode_eq_ok_iff.mp hdecode
    have hcut : Frame.decode (buf.take (s.validLength - offset)) offset = .ok (r, n) := by
      refine Frame.decode_eq_ok_iff.mpr ⟨?_, ?_⟩
      · rw [List.length_take]
        omega
      · rwa [List.take_take, Nat.min_eq_left (by omega)]
    rw [scanFrom_of_decode hcut, List.drop_take, Nat.sub_sub, ih]
    rfl

/-! ### The records found -/

/-- The records that a scan finds, if it succeeds. -/
def found? (buf : Bytes) : Option (List LogRecord) := (scan buf).toOption.map (·.records)

lemma found?_eq_some_iff : found? buf = some rs ↔ ∃ s, scan buf = .ok s ∧ s.records = rs := by
  cases h : scan buf <;> simp [found?, h, Except.toOption]

lemma found?_nil : found? [] = some [] := found?_eq_some_iff.mpr ⟨_, scan_nil, rfl⟩

lemma records_map (x : Except StorageError LogScan) (f : List LogRecord → List LogRecord) :
    (x.map fun s => { s with records := f s.records }).toOption.map (·.records) =
      (x.toOption.map (·.records)).map f := by
  cases x <;> rfl

/-- The offset does not matter. -/
lemma records_scanFrom (offset : Nat) (buf : Bytes) :
    (scanFrom offset buf).toOption.map (·.records) = found? buf := by
  -- the recursion of a scan follows the bytes, so that two scans from two offsets go in step
  induction hlength : buf.length using Nat.strongRecOn generalizing buf offset with
  | ind l ih =>
    rw [found?, scan]
    rcases Frame.decode_cases buf with ⟨r, n, h⟩ | ⟨needed, h⟩ | ⟨d, h⟩
    · have hsize := Frame.decode_size (h 0)
      have hdrop : (buf.drop n).length < l := by
        rw [List.length_drop]
        omega
      have hrest : ∀ o o', (scanFrom o (buf.drop n)).toOption.map (·.records) =
          (scanFrom o' (buf.drop n)).toOption.map (·.records) := fun o o' =>
        (ih _ hdrop o (buf.drop n) rfl).trans (ih _ hdrop o' (buf.drop n) rfl).symm
      rw [scanFrom_of_decode (h offset), scanFrom_of_decode (h 0), records_map _ (r :: ·),
        records_map _ (r :: ·), hrest]
    · rw [scanFrom_of_incomplete (h offset), scanFrom_of_incomplete (h 0)]
      rfl
    · rw [scanFrom_of_corruption (h offset), scanFrom_of_corruption (h 0)]
      split <;> rfl

lemma found?_of_decode (h : Frame.decode buf offset = .ok (r, n)) :
    found? buf = (found? (buf.drop n)).map (r :: ·) := by
  rw [← records_scanFrom offset buf, scanFrom_of_decode h, records_map _ (r :: ·),
    records_scanFrom]

lemma found?_of_incomplete
    (h : Frame.decode buf offset = .error (.incomplete offset buf.length needed)) :
    found? buf = some [] := by
  rw [← records_scanFrom offset buf, scanFrom_of_incomplete h]
  rfl

lemma found?_of_corruption (h : Frame.decode buf offset = .error (.corruption (.frame offset d))) :
    found? buf = if isTorn buf then some [] else none := by
  rw [← records_scanFrom offset buf, scanFrom_of_corruption h]
  split <;> rfl

/-- A length field that claims more than there is ends a scan with success. -/
lemma found?_of_beyond (hfour : 4 ≤ buf.length) (hmin : Frame.minimum ≤ Bytes.toNat (buf.take 4))
    (hend : buf.length < 4 + Bytes.toNat (buf.take 4)) : found? buf = some [] :=
  found?_of_incomplete (Frame.decode_of_beyond hfour hmin hend 0)

lemma found?_frames_append (h : ∀ q ∈ rs, Frame.Fits q) (rest : Bytes) :
    found? (frames rs ++ rest) = (found? rest).map (rs ++ ·) := by
  rw [found?, scan_frames_append h, records_map _ (rs ++ ·), records_scanFrom]

lemma found?_frames (h : ∀ q ∈ rs, Frame.Fits q) : found? (frames rs) = some rs := by
  have happend := found?_frames_append h []
  rwa [List.append_nil, found?_nil, Option.map_some, List.append_nil] at happend

/-- Behind whole frames, a scan finds certain further records if it finds them there. -/
lemma found?_frames_append_iff (h : ∀ q ∈ rs, Frame.Fits q) :
    found? (frames rs ++ rest) = some (rs ++ qs) ↔ found? rest = some qs := by
  rw [found?_frames_append h]
  constructor
  · intro hfound
    obtain ⟨qs', hrest, heq⟩ := Option.map_eq_some_iff.mp hfound
    rw [hrest, List.append_cancel_left heq]
  · intro hrest
    rw [hrest]
    rfl

/-- A record is found first where one of its frames stands. -/
lemma found?_eq_some_cons_iff :
    found? buf = some (r :: rs) ↔
      ∃ n ≤ buf.length, Frame.IsFrame r (buf.take n) ∧ found? (buf.drop n) = some rs := by
  constructor
  · intro h
    rcases Frame.decode_cases buf with ⟨q, n, hd⟩ | ⟨needed, hd⟩ | ⟨d, hd⟩
    · rw [found?_of_decode (hd 0)] at h
      obtain ⟨qs, hrest, heq⟩ := Option.map_eq_some_iff.mp h
      obtain ⟨rfl, rfl⟩ := List.cons.inj heq
      obtain ⟨hn, hframe⟩ := Frame.decode_eq_ok_iff.mp (hd 0)
      exact ⟨n, hn, hframe, hrest⟩
    · rw [found?_of_incomplete (hd 0)] at h
      cases h
    · rw [found?_of_corruption (hd 0)] at h
      split at h <;> cases h
  · rintro ⟨n, hn, hframe, hrest⟩
    have hdecode : Frame.decode buf 0 = .ok (r, n) := Frame.decode_eq_ok_iff.mpr ⟨hn, hframe⟩
    rw [found?_of_decode hdecode, hrest]
    rfl

/-- A scan ends at a whole frame with success if the frame cannot be read and nothing follows. -/
lemma found?_whole_iff (h : Frame.Whole bs) :
    found? (bs ++ rest) = some [] ↔ rest = [] ∧ ∀ r, ¬Frame.IsFrame r bs := by
  obtain ⟨r, hr⟩ | ⟨d, hd⟩ := h.decode_cases
  · have hframe := (h.isFrame_of_decode (hr rest 0)).2
    rw [found?_of_decode (hr rest 0)]
    constructor
    · intro hfound
      obtain ⟨_, -, hcons⟩ := Option.map_eq_some_iff.mp hfound
      cases hcons
    · exact fun hnot => absurd hframe (hnot.2 r)
  · rw [found?_of_corruption (hd rest 0), ← isTorn_whole_iff h]
    simp [Frame.not_isFrame_of_error (hd rest 0)]

/-- A scan succeeds and finds nothing in what is torn and no frame. -/
lemma found?_eq_nil_iff : found? buf = some [] ↔ isTorn buf = true ∧ ∀ r, ¬Frame.IsFrame r buf := by
  have hnot : ∀ e, Frame.decode buf 0 = .error e → ∀ r, ¬Frame.IsFrame r buf := fun e h =>
    Frame.not_isFrame_of_error ((List.append_nil buf).symm ▸ h)
  rcases Frame.length_cases buf with ⟨needed, hi⟩ | ⟨d, hc⟩ | ⟨bs, rest, rfl, hwhole⟩
  · exact iff_of_true (found?_of_incomplete (hi 0)) ⟨isTorn_of_incomplete (hi 0), hnot _ (hi 0)⟩
  · rw [found?_of_corruption (hc 0)]
    simp [hnot _ (hc 0)]
  · rw [found?_whole_iff hwhole, isTorn_whole_iff hwhole]
    refine and_congr_right ?_
    rintro rfl
    rw [List.append_nil]

/-- Where no frame ends within the first part, a record is found first where one of its frames ends
in the second. -/
lemma found?_append_iff (h : ∀ q n, Frame.decode buf 0 ≠ .ok (q, n)) :
    found? (buf ++ rest) = some (r :: rs) ↔
      ∃ j ≤ rest.length, Frame.IsFrame r (buf ++ rest.take j) ∧ found? (rest.drop j) = some rs := by
  rw [found?_eq_some_cons_iff]
  constructor
  · rintro ⟨n, hn, hframe, hrest⟩
    -- no frame ends before, and so the first one ends in the second part
    have hbeyond : buf.length ≤ n := by
      by_contra hnot
      rw [List.take_append_of_le_length (by omega)] at hframe
      exact h r n (Frame.decode_eq_ok_iff.mpr ⟨by omega, hframe⟩)
    obtain ⟨j, rfl⟩ := Nat.exists_eq_add_of_le hbeyond
    rw [List.length_append] at hn
    rw [List.take_length_add_append] at hframe
    rw [List.drop_length_add_append] at hrest
    exact ⟨j, by omega, hframe, hrest⟩
  · rintro ⟨j, hj, hframe, hrest⟩
    refine ⟨buf.length + j, ?_, ?_, ?_⟩
    · rw [List.length_append]
      omega
    · rwa [List.take_length_add_append]
    · rwa [List.drop_length_add_append]

end LogScan

end TwoPhaseCommit
