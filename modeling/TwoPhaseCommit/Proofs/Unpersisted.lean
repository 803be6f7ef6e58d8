import TwoPhaseCommit.Proofs.Scan

/-!
# Appends that reached the disk in part

Of a final append some bytes can reach the disk and others not, which are read back as zeros. If the
length field did, or nothing did, the append is read or passes for torn. If a part of the field is
missing, it announces less than there is, and what is damaged looks as if more data followed.
-/

namespace TwoPhaseCommit

/-! ### Lost bytes -/

/-- What is read back if the bytes at the lost positions did not reach the disk. -/
def Bytes.persisted (lost : Nat → Bool) (bs : Bytes) : Bytes :=
  bs.mapIdx fun i b => if lost i then 0 else b

namespace Bytes

lemma persisted_cons (lost : Nat → Bool) (b : UInt8) (bs : Bytes) :
    persisted lost (b :: bs) = (if lost 0 then 0 else b) :: persisted (fun i => lost (i + 1)) bs :=
  List.mapIdx_cons

@[simp] lemma length_persisted (lost : Nat → Bool) (bs : Bytes) :
    (persisted lost bs).length = bs.length := List.length_mapIdx

lemma take_persisted (lost : Nat → Bool) (bs : Bytes) (n : Nat) :
    (persisted lost bs).take n = persisted lost (bs.take n) := by
  refine List.ext_getElem (by simp) fun i _ _ => ?_
  simp [persisted]

/-- To lose bytes makes a number smaller, unless all that are lost were zeros. -/
lemma toNat_persisted (lost : Nat → Bool) (bs : Bytes) :
    toNat (persisted lost bs) < toNat bs ∨ persisted lost bs = bs := by
  induction bs generalizing lost with
  | nil => exact .inr rfl
  | cons b bs ih =>
    rw [persisted_cons, toNat, toNat]
    -- of a byte all is lost or nothing, and a zero cannot be told from a loss
    have hbyte : (if lost 0 then 0 else b).toNat < b.toNat ∨ (if lost 0 then 0 else b) = b := by
      by_cases hb : b = 0
      · simp [hb]
      · have hpos : 0 < b.toNat := Nat.pos_of_ne_zero (mt (UInt8.toNat_inj (b := 0)).mp hb)
        split
        · exact .inl hpos
        · exact .inr rfl
    have hle : (if lost 0 then 0 else b).toNat ≤ b.toNat := by
      rcases hbyte with hlt | heq
      · exact hlt.le
      · rw [heq]
    rcases ih fun i => lost (i + 1) with hlt | heq
    · exact .inl (by omega)
    · rw [heq]
      rcases hbyte with hlt | hsame
      · exact .inl (by omega)
      · exact .inr (by rw [hsame])

end Bytes

namespace LogScan

open Bytes

variable {buf bs : Bytes} {r : LogRecord} {rs : List LogRecord}

/-! ### What a scan makes of them -/

/-- No more than one record is found. -/
def FindsOne (buf : Bytes) : Prop := found? buf = some [] ∨ ∃ q, found? buf = some [q]

/-- Bytes of the length that their length field announces are read or pass for torn. -/
lemma findsOne_of_whole (h : Frame.Whole bs) : FindsOne bs := by
  obtain ⟨q, hq⟩ | ⟨d, hd⟩ := h.decode_cases
  · have hdecode := hq [] 0
    rw [List.append_nil] at hdecode
    refine .inr ⟨q, ?_⟩
    rw [found?_of_decode hdecode, List.drop_length, found?, scan_nil]
    rfl
  · refine .inl (found?_eq_nil_iff.mpr ⟨?_, Frame.not_isFrame_of_error (hd [] 0)⟩)
    have htorn : isTorn (bs ++ []) = true := (isTorn_whole_iff h).mpr rfl
    rwa [List.append_nil] at htorn

/-- Zeros pass for torn. -/
lemma found?_of_zeros (h : ∀ b ∈ buf, b = 0) : found? buf = some [] := by
  refine found?_eq_nil_iff.mpr ⟨?_, fun q hq => ?_⟩
  · have hall : buf.all (· == 0) = true := by simpa using h
    rw [isTorn, hall, Bool.or_true]
  · have hmin := hq.whole.minimum_le
    unfold Frame.minimum at hmin
    obtain ⟨b, hb, hne⟩ := exists_ne_zero (show toNat (buf.take 4) ≠ 0 by omega)
    exact hne (h b (List.mem_of_mem_take hb))

/-- Where more bytes follow than the length field announces, no more than one record is found if
there are only zeros, or if one frame stands at the front and what follows it passes for torn. -/
lemma findsOne_of_short (hfour : 4 ≤ buf.length)
    (hshort : 4 + toNat (buf.take 4) < buf.length) :
    FindsOne buf ↔ (∀ b ∈ buf, b = 0) ∨ ∃ q n, n < buf.length ∧ Frame.IsFrame q (buf.take n) ∧
      isTorn (buf.drop n) = true ∧ ∀ q', ¬Frame.IsFrame q' (buf.drop n) := by
  constructor
  · rintro (hnil | ⟨q, hone⟩)
    · left
      by_contra hnot
      push Not at hnot
      have hle := (isTorn_iff hfour hnot).mp (found?_eq_nil_iff.mp hnil).1
      omega
    · -- the frame that is found ends before the buffer does, as the field announces too little
      obtain ⟨n, hn, hframe, hrest⟩ := found?_eq_some_cons_iff.mp hone
      obtain ⟨htorn, hnone⟩ := found?_eq_nil_iff.mp hrest
      refine .inr ⟨q, n, Nat.lt_of_le_of_ne hn ?_, hframe, htorn, hnone⟩
      rintro rfl
      rw [List.take_length] at hframe
      have hlength := hframe.whole.length_eq
      omega
  · rintro (hzeros | ⟨q, n, hn, hframe, htorn, hnone⟩)
    · exact .inl (found?_of_zeros hzeros)
    · exact .inr ⟨q, found?_eq_some_cons_iff.mpr
        ⟨n, hn.le, hframe, found?_eq_nil_iff.mpr ⟨htorn, hnone⟩⟩⟩

/-- A length field that announces less than any frame has is an error, unless there are only
zeros. -/
lemma scan_of_small (hrs : ∀ q ∈ rs, Frame.Fits q)
    (hsmall : toNat (buf.take 4) < Frame.minimum) (hshort : 4 + toNat (buf.take 4) < buf.length)
    (hb : ∃ b ∈ buf, b ≠ 0) :
    scan (frames rs ++ buf) = .error (.corruption (.frame (frames rs).length
      (.length (toNat (buf.take 4)) Frame.minimum))) := by
  have hfour : 4 ≤ buf.length := by omega
  have htorn : ¬isTorn buf = true := by
    rw [isTorn_iff hfour hb]
    omega
  rw [scan_frames_append hrs, scanFrom_of_corruption (Frame.decode_of_small hfour hsmall _),
    if_neg htorn]
  rfl

/-- A scan of whole frames and what follows them reads these records, and one more at most, exactly
if it would find one record at most in what follows. -/
lemma scan_findsOne_iff (hrs : ∀ q ∈ rs, Frame.Fits q) :
    (∃ s, scan (frames rs ++ buf) = .ok s ∧ (s.records = rs ∨ ∃ q, s.records = rs ++ [q])) ↔
      FindsOne buf := by
  have hfound : ∀ qs, (∃ s, scan (frames rs ++ buf) = .ok s ∧ s.records = rs ++ qs) ↔
      found? buf = some qs := by
    intro qs
    rw [← found?_frames_append_iff hrs, found?]
    cases scan (frames rs ++ buf) <;> simp [Except.toOption]
  have hnil := hfound []
  rw [List.append_nil] at hnil
  rw [FindsOne, ← hnil]
  simp only [← hfound, and_or_left, exists_or, ← exists_and_left]
  rw [exists_comm]

/-- A final append of which some bytes did not reach the disk leaves a log that can be opened, with
the records before it and one more at most, exactly if nothing of its length field was lost, or all
that is not zero was, or if by chance a shorter frame stands at its front and what follows that one
passes for torn. -/
theorem partly_persisted_iff (hrs : ∀ q ∈ rs, Frame.Fits q) (hr : Frame.Fits r)
    (lost : Nat → Bool) :
    (∃ s, scan (frames rs ++ persisted lost (Frame.encode r)) = .ok s ∧
      (s.records = rs ∨ ∃ q, s.records = rs ++ [q])) ↔
    (persisted lost (Frame.encode r)).take 4 = (Frame.encode r).take 4 ∨
    (∀ b ∈ persisted lost (Frame.encode r), b = 0) ∨
    ∃ q n, n < (Frame.encode r).length ∧
      Frame.IsFrame q ((persisted lost (Frame.encode r)).take n) ∧
      isTorn ((persisted lost (Frame.encode r)).drop n) = true ∧
      ∀ q', ¬Frame.IsFrame q' ((persisted lost (Frame.encode r)).drop n) := by
  have hwhole := (Frame.isFrame_encode hr).whole
  have hlength := length_persisted lost (Frame.encode r)
  have hfield := toNat_persisted lost ((Frame.encode r).take 4)
  rw [← take_persisted] at hfield
  generalize persisted lost (Frame.encode r) = buf at hlength hfield
  rw [scan_findsOne_iff hrs]
  by_cases hkept : buf.take 4 = (Frame.encode r).take 4
  · refine iff_of_true (findsOne_of_whole ⟨?_, ?_⟩) (.inl hkept)
    · rw [hkept]
      exact hwhole.minimum_le
    · rw [hkept, hlength]
      exact hwhole.length_eq
  · -- a length field that has lost something is too small
    have hless := hfield.resolve_right hkept
    have hsize := hwhole.length_eq
    rw [findsOne_of_short (by omega) (by omega), hlength]
    simp [hkept]

/-- Nothing but the first twenty bytes reached the disk. -/
theorem partly_persisted_iff_begun :
    ∃ s, scan (frames [Frame.accented] ++
        persisted (fun i => decide (20 ≤ i)) (Frame.encode Frame.accented)) = .ok s ∧
      (s.records = [Frame.accented] ∨ ∃ q, s.records = [Frame.accented] ++ [q]) :=
  (partly_persisted_iff (by decide +kernel) (by decide +kernel) _).mpr (.inl (by decide +kernel))

/-- An append whose length field did not reach the disk can keep the log from being opened. -/
theorem unpersisted_blocks :
    ¬∀ (rs : List LogRecord) (r : LogRecord) (lost : Nat → Bool),
      (∀ q ∈ rs, Frame.Fits q) → Frame.Fits r →
      ∃ s, scan (frames rs ++ persisted lost (Frame.encode r)) = .ok s ∧
        (s.records = rs ∨ ∃ q, s.records = rs ++ [q]) := by
  intro h
  obtain ⟨s, hs, -⟩ := h [] Frame.accented (fun i => decide (i < 4)) (by decide) (by decide +kernel)
  rw [scan_of_small (by decide) (by decide +kernel) (by decide +kernel) (by decide +kernel)] at hs
  cases hs

end LogScan

end TwoPhaseCommit
