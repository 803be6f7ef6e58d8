import TwoPhaseCommit.Proofs.Scan

/-!
# Damage to a log

Damage within four consecutive bytes of a frame is noticed if it spares the length field: it is an
error if more data follow, and counts as a torn append at the end of the log. Where a frame ends is
known from its length field only, which no checksum covers. A field that claims more than is left of
the log makes damage in the middle look like a torn append.
-/

namespace TwoPhaseCommit

namespace Frame

variable {bs bs' body stored field junk rest : Bytes} {r : LogRecord}

/-! ### Sealed bytes -/

/-- The last four bytes are the checksum of those before them. -/
def Sealed (bs : Bytes) : Prop :=
  ∃ body stored, stored.length = 4 ∧ bs = body ++ stored ∧
    Checksum.crc32 body = Checksum.word stored

lemma sealed_append_iff (h : stored.length = 4) :
    Sealed (body ++ stored) ↔ Checksum.crc32 body = Checksum.word stored := by
  constructor
  · rintro ⟨body', stored', h', heq, hcrc⟩
    obtain ⟨rfl, rfl⟩ := List.append_inj' heq (h.trans h'.symm)
    exact hcrc
  · exact fun hcrc => ⟨body, stored, h, rfl, hcrc⟩

lemma sealed_iff_residue (h : 4 ≤ bs.length) :
    Sealed bs ↔ Checksum.feed (BitVec.allOnes 32) bs = Checksum.residue := by
  have hstored : (bs.drop (bs.length - 4)).length = 4 := by
    rw [List.length_drop]
    omega
  rw [← List.take_append_drop (bs.length - 4) bs, sealed_append_iff hstored,
    Checksum.crc32_eq_word_iff hstored]

lemma drop_encode (r : LogRecord) :
    (encode r).drop 4 =
      tag r.decision :: Payload.encode r ++ checksum (tag r.decision) (Payload.encode r) := by
  rw [encode, wrap, List.append_assoc]
  exact List.drop_left' (Bytes.length_ofNat ..)

/-- Sealed bytes that start with the tag and the payload of a record make one of its frames. -/
lemma isFrame_of_sealed (hfield : field.length = 4)
    (hlength : Bytes.toNat field = (tag r.decision :: Payload.encode r ++ junk).length)
    (hjunk : 4 ≤ junk.length) (hs : Sealed (tag r.decision :: Payload.encode r ++ junk)) :
    IsFrame r (field ++ (tag r.decision :: Payload.encode r ++ junk)) := by
  have hsplit := List.take_append_drop (junk.length - 4) junk
  have hstored : (junk.drop (junk.length - 4)).length = 4 := by
    rw [List.length_drop]
    omega
  -- the last four bytes are the stored checksum, what stands before them is left undecoded
  generalize junk.take (junk.length - 4) = extra at hsplit
  generalize junk.drop (junk.length - 4) = stored at hsplit hstored
  subst hsplit
  have hsize : (field ++ (tag r.decision :: Payload.encode r ++ (extra ++ stored))).length - 4 =
      Bytes.toNat field := by
    rw [List.length_append, hfield, ← hlength]
    omega
  rw [← List.append_assoc, sealed_append_iff hstored] at hs
  refine ⟨hsize ▸ Bytes.toNat_lt_of_length hfield, extra, ?_⟩
  rw [hsize, Bytes.ofNat_toNat_of_length hfield, ← List.cons_append, hs,
    Checksum.ofNat_word hstored]
  simp only [List.append_assoc, List.cons_append]

lemma IsFrame.sealed (h : IsFrame r bs) : Sealed (bs.drop 4) := by
  obtain ⟨-, junk, hbs⟩ := h
  rw [hbs, List.append_assoc, List.drop_left' (Bytes.length_ofNat ..)]
  exact (sealed_append_iff (Bytes.length_ofNat ..)).mpr (Checksum.word_ofNat _).symm

/-- A whole frame that is not sealed is damaged. -/
lemma Whole.decode_of_unsealed (h : Whole bs) (hs : ¬Sealed (bs.drop 4)) (rest : Bytes)
    (offset : Nat) : ∃ d, decode (bs ++ rest) offset = .error (.corruption (.frame offset d)) := by
  obtain ⟨r, hr⟩ | ⟨d, hd⟩ := h.decode_cases
  · exact absurd (h.isFrame_of_decode (hr rest offset)).2.sealed hs
  · exact ⟨d, hd rest offset⟩

/-! ### Bursts -/

/-- Two byte strings differ, but not in the first four bytes, and in no more than four consecutive
ones. -/
def Burst (bs bs' : Bytes) : Prop :=
  ∃ pre ws ws' post, 4 ≤ pre.length ∧ ws.length ≤ 4 ∧ ws'.length = ws.length ∧ ws' ≠ ws ∧
    bs = pre ++ ws ++ post ∧ bs' = pre ++ ws' ++ post

lemma Burst.length_eq (h : Burst bs bs') : bs'.length = bs.length := by
  obtain ⟨pre, ws, ws', post, -, -, hlength, -, rfl, rfl⟩ := h
  simp only [List.length_append, hlength]

lemma Burst.take_four (h : Burst bs bs') : bs'.take 4 = bs.take 4 := by
  obtain ⟨pre, ws, ws', post, hpre, -, -, -, rfl, rfl⟩ := h
  rw [List.append_assoc, List.append_assoc, List.take_append_of_le_length hpre,
    List.take_append_of_le_length hpre]

/-- A burst breaks the seal, wherever it falls on bytes and checksum. -/
lemma Burst.unsealed (h : Burst bs bs') (hbs : 8 ≤ bs.length) (hs : Sealed (bs.drop 4)) :
    ¬Sealed (bs'.drop 4) := by
  have hbs' : 8 ≤ bs'.length := h.length_eq ▸ hbs
  obtain ⟨pre, ws, ws', post, hpre, hfour, hlength, hne, rfl, rfl⟩ := h
  have hdrop : ∀ xs, (pre ++ xs ++ post).drop 4 = pre.drop 4 ++ xs ++ post := fun xs => by
    rw [List.append_assoc, List.drop_append_of_le_length hpre, List.append_assoc]
  rw [sealed_iff_residue (by rw [List.length_drop]; omega), hdrop] at hs ⊢
  rw [← hs]
  exact Checksum.feed_ne hlength hfour hne _

lemma Burst.whole (h : Burst bs bs') (hw : Whole bs) : Whole bs' :=
  ⟨h.take_four ▸ hw.minimum_le, by rw [h.length_eq, h.take_four, ← hw.length_eq]⟩

end Frame

namespace LogScan

variable {damaged bs rest field body : Bytes} {r : LogRecord} {rs rs₂ : List LogRecord}

/-! ### Damage to content -/

lemma frames_ne_nil (h : rs ≠ []) : frames rs ≠ [] := by
  obtain ⟨q, qs, rfl⟩ := List.exists_cons_of_ne_nil h
  have hsize := Frame.length_encode q
  rw [frames_cons]
  intro hnil
  rw [(List.append_eq_nil_iff.mp hnil).1, List.length_nil] at hsize
  omega

lemma scanFrom_unsealed (h : Frame.Whole bs) (hs : ¬Frame.Sealed (bs.drop 4)) (offset : Nat)
    (rest : Bytes) :
    (rest ≠ [] → ∃ d, scanFrom offset (bs ++ rest) = .error (.corruption (.frame offset d))) ∧
    (rest = [] → scanFrom offset (bs ++ rest) = .ok ⟨[], offset, bs.length⟩) := by
  obtain ⟨d, hdecode⟩ := h.decode_of_unsealed hs rest offset
  rw [scanFrom_of_corruption hdecode]
  constructor
  · intro hne
    exact ⟨d, if_neg (mt (isTorn_whole_iff h).mp hne)⟩
  · rintro rfl
    rw [if_pos ((isTorn_whole_iff h).mpr rfl), List.append_nil]

/-- A burst in a frame is noticed: it is an error if more data follow, and a torn append if none do.
No record is read from the damaged frame. -/
theorem damage_noticed (hrs : ∀ q ∈ rs, Frame.Fits q) (hr : Frame.Fits r)
    (h : Frame.Burst (Frame.encode r) damaged) :
    (rs₂ ≠ [] → ∃ d, scan (frames rs ++ damaged ++ frames rs₂) =
      .error (.corruption (.frame (frames rs).length d))) ∧
    (rs₂ = [] → scan (frames rs ++ damaged ++ frames rs₂) =
      .ok ⟨rs, (frames rs).length, (Frame.encode r).length⟩) := by
  have hsize : 8 ≤ (Frame.encode r).length := by
    rw [Frame.length_encode]
    omega
  obtain ⟨hmore, hend⟩ := scanFrom_unsealed (h.whole (Frame.isFrame_encode hr).whole)
    (h.unsealed hsize (Frame.isFrame_encode hr).sealed) (frames rs).length (frames rs₂)
  rw [List.append_assoc, scan_frames_append hrs]
  constructor
  · intro hne
    obtain ⟨d, hd⟩ := hmore (frames_ne_nil hne)
    rw [hd]
    exact ⟨d, rfl⟩
  · rintro rfl
    rw [hend rfl, h.length_eq]
    simp [Except.map]

/-- Two bytes are damaged in the second of three frames. -/
theorem damage_noticed_midway :
    ∃ d, scan (frames [Frame.accented] ++ ((Frame.encode Frame.accented).take 10 ++ [171, 205] ++
      ((Frame.encode Frame.accented).drop 10).drop 2) ++ frames [Frame.accented]) =
        .error (.corruption (.frame (frames [Frame.accented]).length d)) :=
  (damage_noticed (r := Frame.accented) (by decide +kernel) (by decide +kernel)
    ⟨(Frame.encode Frame.accented).take 10, ((Frame.encode Frame.accented).drop 10).take 2,
      [171, 205], ((Frame.encode Frame.accented).drop 10).drop 2, by decide +kernel,
      by decide +kernel, by decide +kernel, by decide +kernel,
      by rw [List.append_assoc, List.take_append_drop, List.take_append_drop], rfl⟩).1 (by decide)

/-! ### Damage to the length field -/

/-- A scan finds nothing behind a length field that claims more than there is, or just what there is
if no frame comes of it. -/
lemma found?_field_append_iff (hfield : field.length = 4) (hb : ∃ b ∈ body, b ≠ 0) :
    found? (field ++ body) = some [] ↔
      body.length < Bytes.toNat field ∨
      body.length = Bytes.toNat field ∧ ∀ r, ¬Frame.IsFrame r (field ++ body) := by
  have htake : (field ++ body).take 4 = field := List.take_left' hfield
  have hsize : (field ++ body).length = 4 + body.length := by
    rw [List.length_append, hfield]
  have hwhole : ∀ r, Frame.IsFrame r (field ++ body) → body.length = Bytes.toNat field := by
    intro r hframe
    have hlength := hframe.whole.length_eq
    rw [htake, hsize] at hlength
    omega
  obtain ⟨b, hmem, hne⟩ := hb
  rw [found?_eq_nil_iff, isTorn_iff (by omega) ⟨b, List.mem_append_right _ hmem, hne⟩, htake, hsize]
  constructor
  · rintro ⟨hle, hnot⟩
    rcases Nat.lt_or_eq_of_le (Nat.le_of_add_le_add_left hle) with hlt | heq
    · exact .inl hlt
    · exact .inr ⟨heq, hnot⟩
  · rintro (hlt | ⟨heq, hnot⟩)
    · exact ⟨by omega, fun r hframe => absurd (hwhole r hframe) hlt.ne⟩
    · exact ⟨by omega, hnot⟩

/-- With another length field, a frame in the log passes for a torn append, together with all that
follows it, if the field claims more than there is, or just what there is and the checksum that this
makes of the last four bytes is wrong. -/
lemma found?_relabelled_iff (hfield : field.length = 4) (r : LogRecord) (rest : Bytes) :
    found? (field ++ ((Frame.encode r).drop 4 ++ rest)) = some [] ↔
      ((Frame.encode r).drop 4 ++ rest).length < Bytes.toNat field ∨
      ((Frame.encode r).drop 4 ++ rest).length = Bytes.toNat field ∧
        ¬Frame.Sealed ((Frame.encode r).drop 4 ++ rest) := by
  obtain ⟨junk, hjunk, hbody⟩ : ∃ junk, 4 ≤ junk.length ∧ (Frame.encode r).drop 4 ++ rest =
      Frame.tag r.decision :: Payload.encode r ++ junk :=
    ⟨Frame.checksum (Frame.tag r.decision) (Payload.encode r) ++ rest,
      by simp [Frame.checksum], by rw [Frame.drop_encode, List.append_assoc]⟩
  have htag : Frame.tag r.decision ≠ 0 := by cases r.decision <;> decide
  rw [hbody, found?_field_append_iff hfield ⟨Frame.tag r.decision, by simp, htag⟩]
  refine or_congr_right (and_congr_right fun hlength => ?_)
  constructor
  · intro hnot hs
    exact hnot r (Frame.isFrame_of_sealed hfield hlength.symm hjunk hs)
  · intro hs q hframe
    have hsealed := hframe.sealed
    rw [List.drop_left' hfield] at hsealed
    exact hs hsealed

/-- A frame in the log whose length field is replaced passes for a torn append, together with all
that follows it, exactly if the field claims more than there is, or just what there is and the last
four bytes are not the checksum that this makes of them. -/
theorem taken_for_torn_iff (hrs : ∀ q ∈ rs, Frame.Fits q) (hfield : field.length = 4) :
    found? (frames rs ++ (field ++ (Frame.encode r).drop 4) ++ frames rs₂) = some rs ↔
      ((Frame.encode r).drop 4 ++ frames rs₂).length < Bytes.toNat field ∨
      ((Frame.encode r).drop 4 ++ frames rs₂).length = Bytes.toNat field ∧
        ¬Frame.Sealed ((Frame.encode r).drop 4 ++ frames rs₂) := by
  have hfound : found? (frames rs ++ (field ++ ((Frame.encode r).drop 4 ++ frames rs₂))) =
      some (rs ++ []) ↔ _ := found?_frames_append_iff hrs
  rw [List.append_nil] at hfound
  rw [List.append_assoc, List.append_assoc, hfound, found?_relabelled_iff hfield]

/-- One bit of the length field is enough to lose the frame and all that follows. -/
theorem taken_for_torn_iff_bit :
    found? (frames [Frame.accented] ++ ([78, 0, 0, 64] ++ (Frame.encode Frame.accented).drop 4) ++
      frames [Frame.accented]) = some [Frame.accented] :=
  (taken_for_torn_iff (by decide +kernel) rfl).mpr (.inl (by decide +kernel))

/-- A length field that was changed in the middle of a log can pass for that of a torn append. -/
theorem length_unprotected :
    ¬∀ (rs : List LogRecord) (r : LogRecord) (rs₂ : List LogRecord) (field : Bytes),
      (∀ q ∈ rs, Frame.Fits q) → Frame.Fits r → (∀ q ∈ rs₂, Frame.Fits q) → rs₂ ≠ [] →
      field.length = 4 → field ≠ (Frame.encode r).take 4 →
      found? (frames rs ++ (field ++ (Frame.encode r).drop 4) ++ frames rs₂) ≠ some rs := by
  intro h
  refine h [] Frame.accented [Frame.accented] [78, 0, 0, 64] (by decide +kernel) (by decide +kernel)
    (by decide +kernel) (by decide) rfl (by decide +kernel) ?_
  rw [frames_nil, List.nil_append, List.append_assoc, found?_relabelled_iff rfl]
  exact .inl (by decide +kernel)

end LogScan

end TwoPhaseCommit
