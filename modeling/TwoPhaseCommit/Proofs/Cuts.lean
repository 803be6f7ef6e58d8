import TwoPhaseCommit.Proofs.FileLog

/-!
# Logs that are cut short, and logs that grow

A log that is cut anywhere is read up to the last whole frame before the cut. Of a log of any
content, whatever a scan has read is there to stay: it is read again when the torn end is cut off,
and it is read first when anything follows.
-/

namespace TwoPhaseCommit

/-- A frame has a length field, a tag and a checksum at least. -/
lemma Frame.nine_le_of_decode {buf : Bytes} {offset n : Nat} {r : LogRecord}
    (h : decode buf offset = .ok (r, n)) : 9 ≤ n := by
  obtain ⟨-, hframe⟩ := decode_eq_ok_iff.mp h
  have hsize := hframe.length_le
  rw [List.length_take] at hsize
  omega

namespace LogScan

variable {buf : Bytes} {rs qs : List LogRecord} {r : LogRecord} {s : LogScan} {cut : Nat}

/-! ### Cuts -/

/-- The records whose frames end within the first `cut` bytes of their log. -/
def within : (cut : Nat) → List LogRecord → List LogRecord
  | _, [] => []
  | cut, r :: rs =>
    if (Frame.encode r).length ≤ cut then r :: within (cut - (Frame.encode r).length) rs else []

/-- The longest beginning of a list of records whose frames take `cut` bytes at most. -/
structure Longest (cut : Nat) (rs qs : List LogRecord) : Prop where
  begins : qs <+: rs
  length_le : (frames qs).length ≤ cut
  longest : ∀ ps, ps <+: rs → (frames ps).length ≤ cut → ps <+: qs

lemma longest_within (cut : Nat) (rs : List LogRecord) : Longest cut rs (within cut rs) := by
  induction rs generalizing cut with
  | nil => exact ⟨List.prefix_refl _, Nat.zero_le _, fun _ h _ => h⟩
  | cons r rs ih =>
    rw [within]
    split
    next hr =>
      obtain ⟨hbegins, hle, hlongest⟩ := ih (cut - (Frame.encode r).length)
      refine ⟨(List.prefix_cons_inj r).mpr hbegins, ?_, fun ps hps hcut => ?_⟩
      · rw [frames_cons, List.length_append]
        omega
      · cases ps with
        | nil => exact List.nil_prefix
        | cons p ps =>
          obtain ⟨rfl, htail⟩ := List.cons_prefix_cons.mp hps
          rw [frames_cons, List.length_append] at hcut
          exact (List.prefix_cons_inj p).mpr (hlongest ps htail (by omega))
    next hr =>
      refine ⟨List.nil_prefix, Nat.zero_le _, fun ps hps hcut => ?_⟩
      cases ps with
      | nil => exact List.nil_prefix
      | cons p ps =>
        obtain ⟨rfl, -⟩ := List.cons_prefix_cons.mp hps
        rw [frames_cons, List.length_append] at hcut
        omega

/-- What is left of a frame that the cut goes through is torn. -/
lemma scanFrom_take_frames (h : ∀ q ∈ rs, Frame.Fits q) (hcut : cut ≤ (frames rs).length)
    (offset : Nat) :
    scanFrom offset ((frames rs).take cut) =
      .ok ⟨within cut rs, offset + (frames (within cut rs)).length,
        cut - (frames (within cut rs)).length⟩ := by
  induction rs generalizing cut offset with
  | nil =>
    obtain rfl : cut = 0 := Nat.le_zero.mp hcut
    rw [frames_nil, List.take_nil, scanFrom]
    rfl
  | cons r rs ih =>
    rw [List.forall_mem_cons] at h
    rw [frames_cons, List.length_append] at hcut
    rw [frames_cons, within]
    split
    next hr =>
      -- the frame is before the cut, which goes through the rest
      have hdecode := Frame.decode_encode h.1 ((frames rs).take (cut - (Frame.encode r).length))
        offset
      rw [List.take_append, List.take_of_length_le hr, scanFrom_of_decode hdecode, List.drop_left,
        ih h.2 (by omega), frames_cons, List.length_append, Nat.add_assoc, Nat.sub_sub]
      rfl
    next hr =>
      obtain ⟨needed, hdecode⟩ := Frame.decode_take h.1 (Nat.lt_of_not_le hr) offset
      rw [List.take_append_of_le_length (by omega), scanFrom_of_incomplete hdecode,
        List.length_take_of_le (by omega)]
      rfl

/-- A log that is cut anywhere is read up to the last whole frame before the cut, and the rest of it
is torn. -/
theorem cut_anywhere (h : ∀ q ∈ rs, Frame.Fits q) (hcut : cut ≤ (frames rs).length) :
    Longest cut rs (within cut rs) ∧
    scan ((frames rs).take cut) =
      .ok ⟨within cut rs, (frames (within cut rs)).length,
        cut - (frames (within cut rs)).length⟩ := by
  refine ⟨longest_within cut rs, ?_⟩
  rw [scan, scanFrom_take_frames h hcut, Nat.zero_add]

/-- The cut goes through the length field of the third frame. -/
theorem cut_anywhere_third :
    scan ((frames [FileLog.unnamed, Frame.accented, FileLog.unnamed]).take 137) =
      .ok ⟨[FileLog.unnamed, Frame.accented], 135, 2⟩ := by
  have hfits : ∀ q ∈ [FileLog.unnamed, Frame.accented, FileLog.unnamed], Frame.Fits q := by
    decide +kernel
  have hcut : 137 ≤ (frames [FileLog.unnamed, Frame.accented, FileLog.unnamed]).length := by
    decide +kernel
  have hwithin : within 137 [FileLog.unnamed, Frame.accented, FileLog.unnamed] =
      [FileLog.unnamed, Frame.accented] := by decide +kernel
  have hlength : (frames [FileLog.unnamed, Frame.accented]).length = 135 := by decide +kernel
  obtain ⟨-, hscan⟩ := cut_anywhere hfits hcut
  rwa [hwithin, hlength] at hscan

/-! ### Rounds -/

/-- The rounds of a scan that has read some records by `offset`: each reads one frame or ends the
scan. There is no result if there are too few of them. -/
def rounds (buf : Bytes) : (limit offset : Nat) → List LogRecord →
    Option (Except StorageError LogScan)
  | 0, _, _ => none
  | n + 1, offset, rs =>
    let rest := buf.drop offset
    if offset < buf.length then
      match Frame.decode rest offset with
      | .ok (r, size) => rounds buf n (offset + size) (rs ++ [r])
      | .error (.incomplete ..) => some (.ok ⟨rs, offset, rest.length⟩)
      | .error (.corruption c) =>
        some (if isTorn rest then .ok ⟨rs, offset, rest.length⟩ else .error (.corruption c))
      | .error e => some (.error e)
    else some (.ok ⟨rs, offset, rest.length⟩)

/-- A scan has come to its end as soon as there is a round for every nine bytes, and one more. -/
lemma rounds_eq {limit offset : Nat} (h : (buf.length - offset) / 9 < limit)
    (rs : List LogRecord) :
    rounds buf limit offset rs = some ((scanFrom offset (buf.drop offset)).map
      fun s => { s with records := rs ++ s.records }) := by
  induction limit generalizing offset rs with
  | zero => omega
  | succ n ih =>
    rw [rounds]
    by_cases hend : offset < buf.length
    · simp only [if_pos hend]
      rcases Frame.decode_cases (buf.drop offset) with ⟨r, size, hd⟩ | ⟨needed, hd⟩ | ⟨d, hd⟩
      · obtain ⟨-, hsize⟩ := Frame.decode_size (hd offset)
        -- a frame that is read has nine bytes at least, which pay for the round
        have hnine := Frame.nine_le_of_decode (hd offset)
        rw [List.length_drop] at hsize
        simp only [hd offset]
        rw [ih (by omega), scanFrom_of_decode (hd offset), List.drop_drop]
        cases scanFrom (offset + size) (buf.drop (offset + size)) with
        | error e => rfl
        | ok s => simp [Except.map]
      · simp only [hd offset]
        rw [scanFrom_of_incomplete (hd offset)]
        simp [Except.map]
      · simp only [hd offset]
        rw [scanFrom_of_corruption (hd offset)]
        split <;> simp [Except.map]
    · rw [if_neg hend, List.drop_of_length_le (by omega), scanFrom]
      simp [Except.map]

/-! ### Logs of any content -/

/-- What a scan has read is there to stay. -/
structure Steady (buf : Bytes) (s : LogScan) : Prop where
  length_eq : s.validLength + s.tornBytes = buf.length
  /-- Nothing that was read is lost with the torn end. -/
  valid : scan (buf.take s.validLength) = .ok ⟨s.records, s.validLength, 0⟩
  append : ∀ r, Frame.Fits r → scan (buf.take s.validLength ++ Frame.encode r) =
    .ok ⟨s.records ++ [r], s.validLength + (Frame.encode r).length, 0⟩
  /-- Whatever follows, a scan that succeeds reads the same records first. -/
  extension : ∀ ext s', scan (buf ++ ext) = .ok s' → s.records <+: s'.records
  /-- The torn end is cut off when the log is opened. To open it again changes nothing. -/
  opening : ∀ (log : FileLog) fs, log.Holds fs buf → ∃ log' fs',
    (FileLog.open log.path).exec fs = (.ok log', fs') ∧
    log'.Holds fs' (buf.take s.validLength) ∧ log'.tornAtOpen = s.tornBytes ∧
    (FileLog.open log'.path).exec fs' = (.ok { log' with tornAtOpen := 0 }, fs')

/-- A frame that follows whole frames is read. -/
lemma scan_append_encode {n : Nat} (h : scan buf = .ok ⟨rs, n, 0⟩) (hr : Frame.Fits r) :
    scan (buf ++ Frame.encode r) = .ok ⟨rs ++ [r], n + (Frame.encode r).length, 0⟩ := by
  obtain ⟨hvalid, happend⟩ := scanFrom_append h rfl (Frame.encode r)
  have hframe : scanFrom n (Frame.encode r) = .ok ⟨[r], n + (Frame.encode r).length, 0⟩ := by
    have hdecode := Frame.decode_encode hr [] n
    rw [List.append_nil] at hdecode
    rw [scanFrom_of_decode hdecode, List.drop_length, scanFrom]
    rfl
  rw [scan, happend, ← hvalid, hframe]
  rfl

/-- Every scan ends, with a round for every nine bytes and one more. What it has read if it succeeds
is there to stay. -/
theorem scan_steady (buf : Bytes) :
    rounds buf (buf.length / 9 + 1) 0 [] = some (scan buf) ∧
    ∀ s, scan buf = .ok s → Steady buf s := by
  constructor
  · rw [rounds_eq (by omega), scan, List.drop_zero]
    cases scanFrom 0 buf <;> rfl
  · intro s h
    have hreads := reads_of_scanFrom h
    have hvalid : scan (buf.take s.validLength) = .ok ⟨s.records, s.validLength, 0⟩ := hreads.take
    refine ⟨?_, hvalid, fun r hr => ?_, fun ext s' h' => ?_, fun log fs hlog => ?_⟩
    · obtain ⟨-, hlength⟩ := hreads.length_eq
      omega
    · exact scan_append_encode hvalid hr
    · rw [scan, hreads.resume, Nat.sub_zero] at h'
      cases hrest : scanFrom s.validLength (buf.drop s.validLength ++ ext) with
      | error e =>
        rw [hrest] at h'
        cases h'
      | ok s'' =>
        rw [hrest] at h'
        cases h'
        exact List.prefix_append ..
    · obtain ⟨log', fs', hopen, hholds, rfl, -⟩ := hlog.open_of_ok h
      exact ⟨_, fs', hopen, hholds, rfl, hholds.open_of_untorn hvalid rfl⟩

/-- A frame is followed by the length field of another. -/
theorem scan_steady_begun :
    Steady (frames [Frame.accented] ++ [53, 0, 0, 0]) ⟨[Frame.accented], 82, 4⟩ := by
  have hfits : ∀ q ∈ [Frame.accented], Frame.Fits q := by decide +kernel
  have hbegun : Frame.decode [53, 0, 0, 0] 82 = .error (.incomplete 82 4 57) := by decide +kernel
  have hlength : (frames [Frame.accented]).length = 82 := by decide +kernel
  refine (scan_steady _).2 _ ?_
  rw [scan_frames_append hfits, hlength, scanFrom_of_incomplete hbegun]
  rfl

end LogScan

end TwoPhaseCommit
