import Mathlib.Tactic.Common
import TwoPhaseCommit.Log.Scan

/-!
# Torn appends

An append that is cut short leaves the beginning of a frame at the end of a log. A scan counts those
bytes and reads the records before them, as if nothing had been appended.
-/

namespace TwoPhaseCommit

/-- What lies within the first of two parts. -/
lemma Bytes.take_drop_append {bs : Bytes} {i j : Nat} (rest : Bytes) (h : i + j ≤ bs.length) :
    ((bs ++ rest).drop i).take j = (bs.drop i).take j := by
  rw [List.drop_append_of_le_length (by omega)]
  apply List.take_append_of_le_length
  rw [List.length_drop]
  omega

namespace Frame

variable {buf : Bytes} {offset n k : Nat} {r : LogRecord}

/-- A frame is read the same whatever follows it. -/
lemma decode_append (h : decode buf offset = .ok (r, n)) (rest : Bytes) :
    decode (buf ++ rest) offset = .ok (r, n) := by
  unfold decode at h ⊢
  dsimp only at h ⊢
  by_cases hfour : buf.length < 4
  · rw [if_pos hfour] at h
    cases h
  have htake : (buf ++ rest).take 4 = buf.take 4 := List.take_append_of_le_length (by omega)
  have hlength : (buf ++ rest).length = buf.length + rest.length := List.length_append
  have hmore : ¬(buf ++ rest).length < 4 := by omega
  rw [if_neg hfour] at h
  rw [if_neg hmore, htake]
  split at h
  next => cases h
  next hmin =>
    rw [if_neg hmin]
    split at h
    next => cases h
    next hend =>
      have hend' : ¬(buf ++ rest).length < 4 + Bytes.toNat (buf.take 4) := by omega
      have hmin' : 5 ≤ Bytes.toNat (buf.take 4) := by
        unfold minimum at hmin
        omega
      -- all that is looked at lies within the frame
      have htagged := Bytes.take_drop_append rest
        (show 4 + (Bytes.toNat (buf.take 4) - 4) ≤ buf.length by omega)
      have hchecksum := Bytes.take_drop_append rest
        (show Bytes.toNat (buf.take 4) + 4 ≤ buf.length by omega)
      rw [if_neg hend', htagged, hchecksum]
      exact h

lemma length_encode (r : LogRecord) :
    (encode r).length = 4 + (1 + (Payload.encode r).length + 4) := by
  simp [encode, wrap, checksum]
  omega

/-- The beginning of a frame is incomplete. -/
lemma decode_take (hr : Fits r) (hk : k < (encode r).length) (offset : Nat) :
    ∃ needed, decode ((encode r).take k) offset = .error (.incomplete offset k needed) := by
  have hlength : ((encode r).take k).length = k := by
    rw [List.length_take]
    omega
  unfold decode
  dsimp only
  rw [hlength]
  by_cases hfour : k < 4
  · exact ⟨4, if_pos hfour⟩
  have hfield : ((encode r).take k).take 4 = Bytes.ofNat 4 (1 + (Payload.encode r).length + 4) := by
    rw [List.take_take, Nat.min_eq_left (by omega)]
    simp [encode, wrap]
  have hdeclared : Bytes.toNat (((encode r).take k).take 4) = 1 + (Payload.encode r).length + 4 := by
    rw [hfield]
    exact Bytes.toNat_ofNat hr
  have hmin : ¬1 + (Payload.encode r).length + 4 < minimum := by
    unfold minimum
    omega
  rw [length_encode] at hk
  rw [if_neg hfour, hdeclared, if_neg hmin, if_pos hk]
  exact ⟨_, rfl⟩

end Frame

namespace LogScan

variable {buf rest : Bytes} {offset n k : Nat} {r : LogRecord} {s : LogScan}

lemma scanFrom_of_decode (h : Frame.decode buf offset = .ok (r, n)) :
    scanFrom offset buf =
      (scanFrom (offset + n) (buf.drop n)).map fun s => { s with records := r :: s.records } := by
  cases buf with
  | nil =>
    obtain ⟨hn, hle⟩ := Frame.decode_size h
    simp at hle
    omega
  | cons b bs =>
    rw [scanFrom]
    split
    next r' n' h' =>
      rw [h] at h'
      cases h'
      rfl
    all_goals
      next h' =>
        rw [h] at h'
        cases h'

lemma scanFrom_of_incomplete {o found needed : Nat}
    (h : Frame.decode buf offset = .error (.incomplete o found needed)) :
    scanFrom offset buf = .ok ⟨[], offset, buf.length⟩ := by
  cases buf with
  | nil => rw [scanFrom, List.length_nil]
  | cons b bs =>
    rw [scanFrom]
    split
    next h' =>
      rw [h] at h'
      cases h'
    next => rfl
    next h' =>
      rw [h] at h'
      cases h'
    next hnot _ h' =>
      rw [h] at h'
      cases h'
      exact (hnot _ _ _ rfl).elim

/-- A scan that succeeds: it stops where it stands, or it reads a frame and goes on behind it. -/
inductive Reads : (offset : Nat) → (buf : Bytes) → LogScan → Prop
  | stop (offset : Nat) (buf : Bytes) : Reads offset buf ⟨[], offset, buf.length⟩
  | frame {offset n : Nat} {buf : Bytes} {r : LogRecord} {s : LogScan}
      (hdecode : Frame.decode buf offset = .ok (r, n)) (h : Reads (offset + n) (buf.drop n) s) :
    Reads offset buf { s with records := r :: s.records }

lemma reads_of_scanFrom (h : scanFrom offset buf = .ok s) : Reads offset buf s := by
  fun_induction scanFrom offset buf generalizing s with
  | case1 offset =>
    cases h
    exact .stop offset []
  | case2 offset b bs r n hdecode ih =>
    cases hrest : scanFrom (offset + n) ((b :: bs).drop n) with
    | error e =>
      rw [hrest] at h
      cases h
    | ok s' =>
      rw [hrest] at h
      cases h
      exact .frame hdecode (ih hrest)
  | case3 offset b bs =>
    cases h
    exact .stop offset _
  | case4 offset b bs =>
    cases h
    exact .stop offset _
  | case5 => cases h
  | case6 => cases h

/-- The whole frames and what is torn make up all that is scanned. -/
lemma Reads.length_eq (h : Reads offset buf s) :
    offset ≤ s.validLength ∧ s.validLength + s.tornBytes = offset + buf.length := by
  induction h with
  | stop offset buf => exact ⟨Nat.le_refl _, rfl⟩
  | frame hdecode _ ih =>
    obtain ⟨hn, hle⟩ := Frame.decode_size hdecode
    obtain ⟨hvalid, hlength⟩ := ih
    rw [List.length_drop] at hlength
    dsimp only
    omega

/-- The scan of a longer log goes on where the whole frames of the shorter one end. -/
lemma Reads.resume (h : Reads offset buf s) (rest : Bytes) :
    scanFrom offset (buf ++ rest) =
      (scanFrom s.validLength (buf.drop (s.validLength - offset) ++ rest)).map
        fun s' => { s' with records := s.records ++ s'.records } := by
  induction h with
  | stop offset buf =>
    rw [Nat.sub_self, List.drop_zero]
    cases scanFrom offset (buf ++ rest) <;> rfl
  | @frame offset n buf r s hdecode h ih =>
    obtain ⟨hn, hle⟩ := Frame.decode_size hdecode
    obtain ⟨hvalid, -⟩ := h.length_eq
    have hdrop : (buf.drop n).drop (s.validLength - (offset + n)) =
        buf.drop (s.validLength - offset) := by
      rw [List.drop_drop]
      congr 1
      omega
    rw [scanFrom_of_decode (Frame.decode_append hdecode rest), List.drop_append_of_le_length hle,
      ih, hdrop]
    cases scanFrom s.validLength (buf.drop (s.validLength - offset) ++ rest) <;> rfl

/-- A scan that finds nothing torn goes on with whatever follows. -/
lemma scanFrom_append (h : scanFrom offset buf = .ok s) (hs : s.tornBytes = 0) (rest : Bytes) :
    s.validLength = offset + buf.length ∧ scanFrom offset (buf ++ rest) =
      (scanFrom (offset + buf.length) rest).map
        fun s' => { s' with records := s.records ++ s'.records } := by
  have hreads := reads_of_scanFrom h
  obtain ⟨-, hlength⟩ := hreads.length_eq
  have hvalid : s.validLength = offset + buf.length := by omega
  have hresume := hreads.resume rest
  rw [hvalid, Nat.add_sub_cancel_left, List.drop_length, List.nil_append] at hresume
  exact ⟨hvalid, hresume⟩

/-- A frame that was only begun adds nothing to a scan but torn bytes. -/
theorem scan_torn (h : scan buf = .ok s) (hs : s.tornBytes = 0) (hr : Frame.Fits r)
    (hk : k < (Frame.encode r).length) :
    scan (buf ++ (Frame.encode r).take k) = .ok ⟨s.records, buf.length, k⟩ := by
  have hbegun : scanFrom buf.length ((Frame.encode r).take k) = .ok ⟨[], buf.length, k⟩ := by
    obtain ⟨needed, hdecode⟩ := Frame.decode_take hr hk buf.length
    rw [scanFrom_of_incomplete hdecode, List.length_take, Nat.min_eq_left (by omega)]
  obtain ⟨-, happend⟩ := scanFrom_append h hs ((Frame.encode r).take k)
  rw [scan, happend, Nat.zero_add, hbegun]
  simp [Except.map]

end LogScan

end TwoPhaseCommit
