import TwoPhaseCommit.Proofs.Checksum
import TwoPhaseCommit.Proofs.Payload
import TwoPhaseCommit.Proofs.Torn

/-!
# Frames and their grammar

A byte string that is as long as its length field announces falls into that field, a tag, a payload
and a checksum. What is read from it depends on these parts alone, so that exactly the frames of the
grammar are read, and each of them as the record that it states.
-/

namespace TwoPhaseCommit.Frame

variable {buf bs field payload stored : Bytes} {found : UInt8} {r : LogRecord} {n : Nat}

/-! ### Lengths -/

lemma decode_of_small (hfour : 4 ≤ buf.length) (hsmall : Bytes.toNat (buf.take 4) < minimum)
    (offset : Nat) :
    decode buf offset =
      .error (.corruption (.frame offset (.length (Bytes.toNat (buf.take 4)) minimum))) := by
  rw [decode, if_neg (by omega)]
  exact if_pos hsmall

lemma decode_of_beyond (hfour : 4 ≤ buf.length) (hmin : minimum ≤ Bytes.toNat (buf.take 4))
    (hend : buf.length < 4 + Bytes.toNat (buf.take 4)) (offset : Nat) :
    decode buf offset =
      .error (.incomplete offset buf.length (4 + Bytes.toNat (buf.take 4))) := by
  rw [decode, if_neg (by omega)]
  dsimp only
  rw [if_neg (by omega), if_pos hend]

/-- A byte string of the length that its length field announces. -/
structure Whole (bs : Bytes) : Prop where
  minimum_le : minimum ≤ Bytes.toNat (bs.take 4)
  length_eq : bs.length = 4 + Bytes.toNat (bs.take 4)

lemma whole_take (hmin : minimum ≤ Bytes.toNat (buf.take 4))
    (hend : 4 + Bytes.toNat (buf.take 4) ≤ buf.length) :
    Whole (buf.take (4 + Bytes.toNat (buf.take 4))) := by
  have hfield : (buf.take (4 + Bytes.toNat (buf.take 4))).take 4 = buf.take 4 := by
    rw [List.take_take, Nat.min_eq_left (by omega)]
  refine ⟨?_, ?_⟩
  · rw [hfield]
    exact hmin
  · rw [hfield, List.length_take, Nat.min_eq_left hend]

/-- Either the length field shows that no whole frame is here, or one stands at the front. -/
lemma length_cases (buf : Bytes) :
    (∃ needed, ∀ offset, decode buf offset = .error (.incomplete offset buf.length needed)) ∨
    (∃ d, ∀ offset, decode buf offset = .error (.corruption (.frame offset d))) ∨
    ∃ bs rest, buf = bs ++ rest ∧ Whole bs := by
  by_cases hfour : buf.length < 4
  · exact .inl ⟨4, fun _ => if_pos hfour⟩
  have hfour : 4 ≤ buf.length := Nat.not_lt.mp hfour
  by_cases hsmall : Bytes.toNat (buf.take 4) < minimum
  · exact .inr (.inl ⟨_, decode_of_small hfour hsmall⟩)
  have hmin : minimum ≤ Bytes.toNat (buf.take 4) := Nat.not_lt.mp hsmall
  by_cases hend : buf.length < 4 + Bytes.toNat (buf.take 4)
  · exact .inl ⟨_, decode_of_beyond hfour hmin hend⟩
  · exact .inr (.inr ⟨_, _, (List.take_append_drop ..).symm, whole_take hmin (by omega)⟩)

/-! ### The parts of a frame -/

lemma length_parts (found : UInt8) (payload : Bytes) (hfield : field.length = 4)
    (hstored : stored.length = 4) :
    (field ++ found :: payload ++ stored).length = payload.length + 9 := by
  simp only [List.length_append, List.length_cons, hfield, hstored]
  omega

lemma Whole.parts (h : Whole bs) :
    ∃ field found payload stored, field.length = 4 ∧ stored.length = 4 ∧
      Bytes.toNat field = payload.length + 5 ∧ bs = field ++ found :: payload ++ stored := by
  obtain ⟨hmin, hlength⟩ := h
  unfold minimum at hmin
  generalize hL : Bytes.toNat (bs.take 4) = L at hmin hlength
  have hfield : (bs.take 4).length = 4 := by
    rw [List.length_take]
    omega
  have hbody : ((bs.drop 4).take (L - 4)).length = L - 4 := by
    rw [List.length_take, List.length_drop]
    omega
  have hstored : (bs.drop L).length = 4 := by
    rw [List.length_drop]
    omega
  have hdrop : bs.drop L = (bs.drop 4).drop (L - 4) := by
    rw [List.drop_drop]
    congr 1
    omega
  -- a whole frame has room for its tag
  obtain ⟨found, payload, hcons⟩ := List.exists_cons_of_length_pos
    (show 0 < ((bs.drop 4).take (L - 4)).length by omega)
  refine ⟨bs.take 4, found, payload, bs.drop L, hfield, hstored, ?_, ?_⟩
  · rw [hcons, List.length_cons] at hbody
    omega
  · rw [← hcons, List.append_assoc, hdrop, List.take_append_drop, List.take_append_drop]

/-- What is read where a whole frame stands: checksum, payload and tag are looked at in turn. -/
lemma decode_parts (found : UInt8) (hfield : field.length = 4) (hstored : stored.length = 4)
    (hlength : Bytes.toNat field = payload.length + 5) (rest : Bytes) (offset : Nat) :
    decode (field ++ found :: payload ++ stored ++ rest) offset =
      if Checksum.crc32 (found :: payload) ≠ Checksum.word stored then
        .error (.corruption (.frame offset
          (.checksum (Checksum.word stored) (Checksum.crc32 (found :: payload)))))
      else
        match Payload.read payload with
        | .error f => .error (.corruption (.frame offset (.payload f)))
        | .ok (r, _) =>
          if tag r.decision = found then .ok (r, payload.length + 9)
          else .error (.corruption (.frame offset (.tag found r.decision))) := by
  have hassoc : field ++ found :: payload ++ stored ++ rest =
      field ++ (found :: payload ++ (stored ++ rest)) := by
    simp only [List.append_assoc]
  have hcut : (field ++ (found :: payload ++ (stored ++ rest))).take 4 = field :=
    List.take_left' hfield
  have htagged : ((field ++ (found :: payload ++ (stored ++ rest))).drop 4).take
      (payload.length + 5 - 4) = found :: payload := by
    rw [List.drop_left' hfield]
    exact List.take_left' (by rw [List.length_cons]; omega)
  have hchecksum : ((field ++ (found :: payload ++ (stored ++ rest))).drop
      (payload.length + 5)).take 4 = stored := by
    rw [← List.append_assoc, List.drop_left', List.take_left' hstored]
    rw [List.length_append, List.length_cons]
    omega
  have hsize : (field ++ (found :: payload ++ (stored ++ rest))).length =
      payload.length + 9 + rest.length := by
    rw [← hassoc, List.length_append, length_parts found payload hfield hstored]
  have hfour : ¬payload.length + 9 + rest.length < 4 := by omega
  have hmin : ¬payload.length + 5 < minimum := by
    unfold minimum
    omega
  have hend : ¬payload.length + 9 + rest.length < 4 + (payload.length + 5) := by omega
  rw [hassoc, decode]
  simp only [hcut, hlength, htagged, hchecksum, hsize, if_neg hfour, if_neg hmin, if_neg hend]
  rw [show 4 + (payload.length + 5) = payload.length + 9 by omega]
  rfl

/-- A whole frame is read or damaged, whatever follows it. -/
lemma Whole.decode_cases (h : Whole bs) :
    (∃ r, ∀ rest offset, decode (bs ++ rest) offset = .ok (r, bs.length)) ∨
    ∃ d, ∀ rest offset, decode (bs ++ rest) offset = .error (.corruption (.frame offset d)) := by
  obtain ⟨field, found, payload, stored, hfield, hstored, hlength, rfl⟩ := h.parts
  have hparts := decode_parts found hfield hstored hlength
  rw [length_parts found payload hfield hstored]
  by_cases hcrc : Checksum.crc32 (found :: payload) ≠ Checksum.word stored
  · exact .inr ⟨_, fun rest offset => (hparts rest offset).trans (if_pos hcrc)⟩
  simp only [if_neg hcrc] at hparts
  cases hread : Payload.read payload with
  | error f =>
    simp only [hread] at hparts
    exact .inr ⟨_, hparts⟩
  | ok p =>
    simp only [hread] at hparts
    by_cases htag : tag p.1.decision = found
    · simp only [if_pos htag] at hparts
      exact .inl ⟨_, hparts⟩
    · simp only [if_neg htag] at hparts
      exact .inr ⟨_, hparts⟩

/-- What is read does not depend on the offset, which errors only name. -/
lemma decode_cases (buf : Bytes) :
    (∃ r n, ∀ offset, decode buf offset = .ok (r, n)) ∨
    (∃ needed, ∀ offset, decode buf offset = .error (.incomplete offset buf.length needed)) ∨
    ∃ d, ∀ offset, decode buf offset = .error (.corruption (.frame offset d)) := by
  rcases length_cases buf with hi | hc | ⟨bs, rest, rfl, hwhole⟩
  · exact .inr (.inl hi)
  · exact .inr (.inr hc)
  · obtain ⟨r, hr⟩ | ⟨d, hd⟩ := hwhole.decode_cases
    · exact .inl ⟨r, _, hr rest⟩
    · exact .inr (.inr ⟨d, hd rest⟩)

/-! ### The grammar -/

/-- The frames of a record: the length of what follows, the tag of the decision, the payload, bytes
that nobody reads, and the checksum of all that stands between the length and itself. -/
def IsFrame (r : LogRecord) (bs : Bytes) : Prop :=
  bs.length - 4 < Bytes.capacity 4 ∧ ∃ junk,
    bs = Bytes.ofNat 4 (bs.length - 4) ++ tag r.decision :: (Payload.encode r ++ junk) ++
      Bytes.ofNat 4 (Checksum.crc32 (tag r.decision :: (Payload.encode r ++ junk))).toNat

/-- A frame is written without junk. -/
lemma isFrame_encode (hr : Fits r) : IsFrame r (encode r) := by
  have hsize : (encode r).length - 4 = 1 + (Payload.encode r).length + 4 := by
    rw [length_encode]
    omega
  refine ⟨hsize ▸ hr, [], ?_⟩
  rw [hsize, List.append_nil]
  rfl

lemma writable_of_fits (hr : Fits r) : Payload.Writable r := by
  have hle : Bytes.capacity 4 ≤ Bytes.capacity 8 := Bytes.capacity_le (by decide)
  unfold Fits at hr
  exact Payload.writable_of_length (by omega)

lemma IsFrame.length_le (h : IsFrame r bs) : (Payload.encode r).length + 9 ≤ bs.length := by
  obtain ⟨-, junk, hbs⟩ := h
  rw [hbs, length_parts _ _ (Bytes.length_ofNat ..) (Bytes.length_ofNat ..), List.length_append]
  omega

lemma IsFrame.fits (h : IsFrame r bs) : Fits r := by
  have hsize := h.length_le
  have hfit := h.1
  unfold Fits
  omega

lemma IsFrame.whole (h : IsFrame r bs) : Whole bs := by
  have hsize := h.length_le
  obtain ⟨hfit, junk, hbs⟩ := h
  have hfield : Bytes.toNat (bs.take 4) = bs.length - 4 := by
    conv_lhs => rw [hbs, List.append_assoc, List.take_left' (Bytes.length_ofNat ..)]
    exact Bytes.toNat_ofNat hfit
  constructor
  · rw [hfield, minimum]
    omega
  · rw [hfield]
    omega

lemma decode_of_isFrame (h : IsFrame r bs) (rest : Bytes) (offset : Nat) :
    decode (bs ++ rest) offset = .ok (r, bs.length) := by
  have hwritable := writable_of_fits h.fits
  obtain ⟨hfit, junk, hbs⟩ := h
  have hsize : bs.length = (Payload.encode r ++ junk).length + 9 := by
    rw [hbs]
    exact length_parts _ _ (Bytes.length_ofNat ..) (Bytes.length_ofNat ..)
  have hlength : Bytes.toNat (Bytes.ofNat 4 (bs.length - 4)) =
      (Payload.encode r ++ junk).length + 5 := by
    rw [Bytes.toNat_ofNat hfit]
    omega
  have hread : Payload.read (Payload.encode r ++ junk) = .ok (r, junk) :=
    Payload.read_iff.mpr ⟨hwritable, rfl⟩
  conv_lhs => rw [hbs]
  rw [decode_parts _ (Bytes.length_ofNat ..) (Bytes.length_ofNat ..) hlength, Checksum.word_ofNat,
    hread, hsize]
  simp

lemma not_isFrame_of_error {rest : Bytes} {offset : Nat} {e : StorageError}
    (h : decode (bs ++ rest) offset = .error e) (r : LogRecord) : ¬IsFrame r bs := by
  intro hframe
  rw [decode_of_isFrame hframe] at h
  cases h

lemma Whole.isFrame_of_decode {rest : Bytes} {offset : Nat} (h : Whole bs)
    (hdecode : decode (bs ++ rest) offset = .ok (r, n)) : n = bs.length ∧ IsFrame r bs := by
  obtain ⟨field, found, payload, stored, hfield, hstored, hlength, rfl⟩ := h.parts
  rw [decode_parts found hfield hstored hlength] at hdecode
  split at hdecode
  next => cases hdecode
  next hcrc =>
    rw [not_not] at hcrc
    split at hdecode
    next => cases hdecode
    next q junk hread =>
      split at hdecode
      next htag =>
        cases hdecode
        obtain ⟨-, rfl⟩ := Payload.read_iff.mp hread
        have hsize := length_parts found (Payload.encode r ++ junk) hfield hstored
        have hstated : (field ++ found :: (Payload.encode r ++ junk) ++ stored).length - 4 =
            Bytes.toNat field := by omega
        have hlt := Bytes.toNat_lt_of_length hfield
        refine ⟨hsize.symm, by omega, junk, ?_⟩
        rw [hstated, htag, Bytes.ofNat_toNat_of_length hfield, hcrc, Checksum.ofNat_word hstored]
      next => cases hdecode

/-- A record is read exactly where one of its frames stands. -/
lemma decode_eq_ok_iff {offset : Nat} :
    decode buf offset = .ok (r, n) ↔ n ≤ buf.length ∧ IsFrame r (buf.take n) := by
  constructor
  · intro h
    rcases length_cases buf with ⟨_, hi⟩ | ⟨_, hc⟩ | ⟨bs, rest, rfl, hwhole⟩
    · rw [hi] at h
      cases h
    · rw [hc] at h
      cases h
    · obtain ⟨rfl, hframe⟩ := hwhole.isFrame_of_decode h
      rw [List.take_left]
      exact ⟨(List.prefix_append ..).length_le, hframe⟩
  · rintro ⟨hn, h⟩
    have hdecode := decode_of_isFrame h (buf.drop n) offset
    rw [List.take_append_drop, List.length_take, Nat.min_eq_left hn] at hdecode
    exact hdecode

/-- What is written is read back, whatever follows it. -/
lemma decode_encode (hr : Fits r) (rest : Bytes) (offset : Nat) :
    decode (encode r ++ rest) offset = .ok (r, (encode r).length) :=
  decode_of_isFrame (isFrame_encode hr) rest offset

/-- Reading accepts the frames of the grammar and nothing else, and what is written is one of them:
it is read back whatever follows it. -/
theorem reads_grammar :
    (∀ (buf : Bytes) (offset : Nat) (r : LogRecord) (n : Nat),
      decode buf offset = .ok (r, n) ↔ n ≤ buf.length ∧ IsFrame r (buf.take n)) ∧
    ∀ r : LogRecord, Fits r → ∀ (rest : Bytes) (offset : Nat),
      decode (encode r ++ rest) offset = .ok (r, (encode r).length) :=
  ⟨fun _ _ _ _ => decode_eq_ok_iff, fun _ => decode_encode⟩

/-- A record with a name whose characters do not all take one byte. -/
def accented : LogRecord := ⟨.mint 0 0, .committed, [⟨"orders"⟩, ⟨"größe"⟩], 7⟩

theorem reads_grammar_accented :
    Fits accented ∧
      decode (encode accented ++ [1, 0, 255]) 5 = .ok (accented, (encode accented).length) :=
  ⟨by decide +kernel, reads_grammar.2 accented (by decide +kernel) [1, 0, 255] 5⟩

end TwoPhaseCommit.Frame
