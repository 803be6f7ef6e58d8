import TwoPhaseCommit.Proofs.Scan

/-!
# Records that are too long

A frame states its length in four bytes. Where these cannot state it, they hold the remainder, and
the record is written all the same. Its frame is then damaged, since what the length field cuts out
of it is the beginning of a payload and not all of it.
-/

namespace TwoPhaseCommit

/-- Of a number that does not fit the width the remainder is read back. -/
lemma Bytes.toNat_ofNat_mod (w n : Nat) : toNat (ofNat w n) = n % capacity w := by
  induction w generalizing n with
  | zero => rw [capacity, Nat.mod_one, ofNat, toNat]
  | succ w ih =>
    have hb : n.toUInt8.toNat = n % 256 := by simp [Nat.toUInt8]
    rw [ofNat, toNat, ih, hb, capacity, Nat.mod_mul]

namespace Frame

open LogScan

variable {r : LogRecord} {n offset : Nat}

lemma toNat_field (r : LogRecord) :
    Bytes.toNat ((encode r).take 4) = (1 + (Payload.encode r).length + 4) % Bytes.capacity 4 := by
  rw [← Bytes.toNat_ofNat_mod]
  simp [encode, wrap]

/-- The length field of a record that does not fit claims less than there is. -/
lemma declared_lt (h : ¬Fits r) : 4 + Bytes.toNat ((encode r).take 4) < (encode r).length := by
  unfold Fits at h
  have hlt : (1 + (Payload.encode r).length + 4) % Bytes.capacity 4 < Bytes.capacity 4 :=
    Nat.mod_lt _ (by decide)
  rw [toNat_field, length_encode]
  omega

/-- Whatever is read in front of a payload that can be read itself is the record of that payload. -/
lemma IsFrame.eq_of_encode {q : LogRecord} {bs rest : Bytes} (h : IsFrame q bs)
    (hr : Payload.Writable r) (hbs : encode r = bs ++ rest) : q = r := by
  have hq := writable_of_fits h.fits
  obtain ⟨-, junk, hparts⟩ := h
  have hpayload : (encode r).drop 5 =
      Payload.encode r ++ checksum (tag r.decision) (Payload.encode r) := by
    simp [encode, wrap, List.drop_append]
  have hbehind : (encode r).drop 5 = Payload.encode q ++ (junk ++ (Bytes.ofNat 4
      (Checksum.crc32 (tag q.decision :: (Payload.encode q ++ junk))).toNat ++ rest)) := by
    rw [hbs, hparts]
    simp [List.drop_append]
  have hread := Payload.read_iff.mpr ⟨hr, hpayload⟩
  rw [Payload.read_iff.mpr ⟨hq, hbehind⟩] at hread
  exact congrArg Prod.fst (Except.ok.inj hread)

/-- A record that does not fit is written as a damaged frame. -/
lemma decode_encode_of_not_fits (h : ¬Fits r) (hr : Payload.Writable r) :
    ∃ d, ∀ rest offset, decode (encode r ++ rest) offset = .error (.corruption (.frame offset d)) := by
  have hlt := declared_lt h
  have hfour : 4 ≤ (encode r).length := by omega
  have hfield : ∀ rest, (encode r ++ rest).take 4 = (encode r).take 4 := fun rest =>
    List.take_append_of_le_length hfour
  by_cases hsmall : Bytes.toNat ((encode r).take 4) < minimum
  · refine ⟨.length (Bytes.toNat ((encode r).take 4)) minimum, fun rest offset => ?_⟩
    rw [← hfield rest] at hsmall
    rw [decode_of_small (by rw [List.length_append]; omega) hsmall, hfield]
  · have hwhole := whole_take (Nat.not_lt.mp hsmall) hlt.le
    have hbs := (List.take_append_drop (4 + Bytes.toNat ((encode r).take 4)) (encode r)).symm
    obtain ⟨q, hq⟩ | ⟨d, hd⟩ := hwhole.decode_cases
    · -- the only record that could be read there is `r`
      obtain ⟨-, hframe⟩ := hwhole.isFrame_of_decode (hq [] 0)
      exact absurd (hframe.eq_of_encode hr hbs ▸ hframe).fits h
    · refine ⟨d, fun rest offset => ?_⟩
      rw [hbs, List.append_assoc, hd]

/-- The frame of a record that does not fit is not taken for a torn append. -/
lemma isTorn_encode_of_not_fits (h : ¬Fits r) (rest : Bytes) :
    isTorn (encode r ++ rest) = false := by
  have hlt := declared_lt h
  have hfour : 4 ≤ (encode r).length := by omega
  have htag : ∃ b ∈ encode r ++ rest, b ≠ 0 :=
    ⟨tag r.decision, by simp [encode, wrap], by cases r.decision <;> decide⟩
  rw [← Bool.not_eq_true, isTorn_iff (by rw [List.length_append]; omega) htag,
    List.take_append_of_le_length hfour, List.length_append]
  omega

/-- A record is read back exactly if its length can be stated. If not, it is written all the same,
but what is written is damaged, and no log in which it stands can be scanned any more. -/
theorem read_back_iff (r : LogRecord) :
    (∀ offset, decode (encode r) offset = .ok (r, (encode r).length) ↔ Fits r) ∧
    (¬Fits r → Payload.Writable r → ∃ d,
      (∀ offset, decode (encode r) offset = .error (.corruption (.frame offset d))) ∧
      ∀ rs rest, (∀ q ∈ rs, Fits q) →
        scan (frames rs ++ encode r ++ rest) =
          .error (.corruption (.frame (frames rs).length d))) := by
  refine ⟨fun offset => ⟨fun hread => ?_, fun hfits => ?_⟩, fun h hr => ?_⟩
  · exact (decode_eq_ok_iff.mp hread).2.fits
  · have hdecode := decode_encode hfits [] offset
    rwa [List.append_nil] at hdecode
  · obtain ⟨d, hd⟩ := decode_encode_of_not_fits h hr
    refine ⟨d, fun offset => ?_, fun rs rest hrs => ?_⟩
    · have hdecode := hd [] offset
      rwa [List.append_nil] at hdecode
    · rw [List.append_assoc, scan_frames_append hrs, scanFrom_of_corruption (hd rest _),
        isTorn_encode_of_not_fits h]
      rfl

/-- A record with so many names that their lengths alone, of eight bytes each, fill four gibibytes.
-/
def crowded : LogRecord := ⟨.mint 0 0, .committed, List.replicate 0x20000000 ⟨""⟩, 7⟩

lemma length_crowded : (Payload.encode crowded).length = 0x100000000 + 44 := by
  have hid : (TxId.mint 0 0).bytes.length = 16 := TxId.length_eq _
  have hname : (Payload.name ⟨""⟩).length = 8 := by decide
  simp only [Payload.encode, crowded, Payload.blob, List.length_append, Bytes.length_ofNat, hid,
    List.length_flatMap, List.map_replicate, List.sum_replicate_nat, hname]

lemma not_fits_crowded : ¬Fits crowded := by
  unfold Fits
  rw [length_crowded]
  decide

lemma writable_crowded : Payload.Writable crowded := by
  refine Payload.writable_of_length ?_
  rw [length_crowded]
  decide

/-- A log with the crowded record between two others cannot be scanned. -/
theorem read_back_iff_crowded : ¬Fits crowded ∧ Payload.Writable crowded ∧ ∃ d,
    decode (encode crowded) 0 = .error (.corruption (.frame 0 d)) ∧
    scan (frames [accented] ++ encode crowded ++ encode accented) =
      .error (.corruption (.frame (frames [accented]).length d)) := by
  obtain ⟨d, hdecode, hscan⟩ := (read_back_iff crowded).2 not_fits_crowded writable_crowded
  exact ⟨not_fits_crowded, writable_crowded, d, hdecode 0,
    hscan [accented] (encode accented) (List.forall_mem_singleton.mpr (by decide +kernel))⟩

/-- Not everything that is written is read back. -/
theorem not_all_read_back :
    ¬∀ r : LogRecord, decode (encode r) 0 = .ok (r, (encode r).length) := by
  intro h
  obtain ⟨d, hd⟩ := decode_encode_of_not_fits not_fits_crowded writable_crowded
  have hdecode := hd [] 0
  rw [List.append_nil, h crowded] at hdecode
  cases hdecode

end Frame

end TwoPhaseCommit
