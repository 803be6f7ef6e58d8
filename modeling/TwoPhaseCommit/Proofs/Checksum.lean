import Mathlib.Data.Nat.Bitwise
import Mathlib.Logic.Function.Iterate
import Mathlib.Tactic.Common
import TwoPhaseCommit.Checksum

/-!
# What the checksum notices

A step of the register is linear and loses nothing, for the generator has its highest bit set. So
two byte strings that differ in no more than four consecutive bytes never leave the same register
behind. A stored checksum is right exactly if feeding it to the register as well leaves a fixed
residue, and therefore damage is noticed in the same way whether it is done to the bytes or to their
checksum.
-/

namespace TwoPhaseCommit.Checksum

variable {bs bs' us vs stored : Bytes}

/-! ### Steps of the register -/

lemma stepBit_xor (c d : BitVec 32) : stepBit (c ^^^ d) = stepBit c ^^^ stepBit d := by
  unfold stepBit
  rw [BitVec.getLsbD_xor, BitVec.ushiftRight_xor_distrib]
  cases c.getLsbD 0 <;> cases d.getLsbD 0
  · rfl
  · exact BitVec.xor_assoc ..
  · simp only [Bool.xor_false, if_true, Bool.false_eq_true, if_false]
    ac_rfl
  · simp only [Bool.xor_self, Bool.false_eq_true, if_false, if_true]
    rw [BitVec.xor_comm (d >>> 1), BitVec.xor_assoc, ← BitVec.xor_assoc generator, BitVec.xor_self,
      BitVec.zero_xor]

/-- Only the empty register leaves an empty one: a bit that is shifted out sets the highest bit. -/
lemma eq_zero_of_stepBit {c : BitVec 32} (h : stepBit c = 0#32) : c = 0#32 := by
  have hbits : ∀ i, c.getLsbD (1 + i) = (c >>> 1).getLsbD i := fun i =>
    (BitVec.getLsbD_ushiftRight c 1 i).symm
  unfold stepBit at h
  split at h
  next hlow =>
    have htop : (c >>> 1).getLsbD 31 = generator.getLsbD 31 := by
      rw [BitVec.xor_eq_zero_iff.mp h]
    rw [← hbits, BitVec.getLsbD_of_ge c (1 + 31) (by omega)] at htop
    exact absurd htop (by decide)
  next hlow =>
    apply BitVec.eq_of_getLsbD_eq
    intro i _
    cases i with
    | zero => simpa using hlow
    | succ i =>
      rw [Nat.add_comm, hbits, h]
      simp

lemma stepBit_injective : Function.Injective stepBit := by
  intro c d h
  rw [← BitVec.xor_eq_zero_iff]
  apply eq_zero_of_stepBit
  rw [stepBit_xor, h, BitVec.xor_self]

lemma iterate_xor (n : Nat) (c d : BitVec 32) :
    stepBit^[n] (c ^^^ d) = stepBit^[n] c ^^^ stepBit^[n] d := by
  induction n with
  | zero => rfl
  | succ n ih => simp only [Function.iterate_succ_apply', ih, stepBit_xor]

/-- Bits that stand above the lowest ones only move down. -/
lemma iterate_shiftLeft {v : BitVec 32} {k : Nat} (h : v.toNat * 2 ^ k < 2 ^ 32) :
    stepBit^[k] (v <<< k) = v := by
  induction k with
  | zero => simp
  | succ k ih =>
    have hsmall : v.toNat * 2 ^ k < 2 ^ 32 :=
      (Nat.mul_le_mul_left _ (Nat.pow_le_pow_right (by decide) (Nat.le_succ k))).trans_lt h
    have hdown : (v <<< (k + 1)) >>> 1 = v <<< k := by
      apply BitVec.eq_of_toNat_eq
      rw [BitVec.toNat_ushiftRight, BitVec.toNat_shiftLeft, BitVec.toNat_shiftLeft,
        Nat.shiftLeft_eq, Nat.shiftLeft_eq, Nat.mod_eq_of_lt h, Nat.mod_eq_of_lt hsmall,
        Nat.shiftRight_one, Nat.pow_succ, ← Nat.mul_assoc, Nat.mul_div_cancel _ (by decide)]
    have hlow : ¬(v <<< (k + 1)).getLsbD 0 = true := by simp
    rw [Function.iterate_succ_apply, stepBit, if_neg hlow, hdown, ih hsmall]

/-! ### Words -/

/-- The register that some bytes spell. -/
def word (bs : Bytes) : BitVec 32 := BitVec.ofNat 32 (Bytes.toNat bs)

lemma word_ofNat (c : BitVec 32) : word (Bytes.ofNat 4 c.toNat) = c := by
  have hc : c.toNat < Bytes.capacity 4 := c.isLt
  rw [word, Bytes.toNat_ofNat hc, BitVec.ofNat_toNat, BitVec.setWidth_eq]

lemma toNat_word (h : bs.length ≤ 4) : (word bs).toNat = Bytes.toNat bs := by
  have hlt : Bytes.toNat bs < Bytes.capacity 4 := (Bytes.toNat_lt bs).trans_le (Bytes.capacity_le h)
  rw [word, BitVec.toNat_ofNat]
  exact Nat.mod_eq_of_lt hlt

lemma ofNat_word (h : bs.length = 4) : Bytes.ofNat 4 (word bs).toNat = bs := by
  rw [toNat_word h.le, Bytes.ofNat_toNat_of_length h]

lemma eq_of_word_eq (hlength : bs'.length = bs.length) (hfour : bs.length ≤ 4)
    (h : word bs' = word bs) : bs' = bs := by
  rw [← Bytes.ofNat_toNat bs', ← Bytes.ofNat_toNat bs, ← toNat_word (hlength.trans_le hfour),
    ← toNat_word hfour, h, hlength]

lemma word_cons (b : UInt8) (bs : Bytes) :
    word (b :: bs) = b.toBitVec.setWidth 32 ^^^ word bs <<< 8 := by
  apply BitVec.eq_of_getLsbD_eq
  intro i hi
  have hb : b.toNat < 2 ^ 8 := b.toNat_lt
  have htoNat : Bytes.toNat (b :: bs) = 2 ^ 8 * Bytes.toNat bs + b.toNat := by
    rw [Bytes.toNat]
    omega
  rw [word, htoNat, BitVec.getLsbD_ofNat, Nat.testBit_two_pow_mul_add _ hb, BitVec.getLsbD_xor,
    BitVec.getLsbD_setWidth, BitVec.getLsbD_shiftLeft, word, BitVec.getLsbD_ofNat]
  by_cases hlow : i < 8
  · simp only [hi, hlow, if_true, decide_true, Bool.true_and, Bool.not_true, Bool.and_false,
      Bool.false_and, Bool.xor_false]
    rfl
  · have hbit : b.toBitVec.getLsbD i = false := BitVec.getLsbD_of_ge _ _ (by omega)
    have hin : i - 8 < 32 := by omega
    simp [hi, hlow, hbit, hin]

/-! ### Feeding bytes -/

lemma stepByte_eq (c : BitVec 32) (b : UInt8) :
    stepByte c b = stepBit^[8] (c ^^^ b.toBitVec.setWidth 32) := rfl

/-- Up to four bytes are fed as if they had been laid over the register at once. -/
lemma feed_eq (h : bs.length ≤ 4) (c : BitVec 32) :
    feed c bs = stepBit^[8 * bs.length] (c ^^^ word bs) := by
  induction bs generalizing c with
  | nil =>
    have hword : word [] = 0#32 := rfl
    rw [hword, BitVec.xor_zero]
    rfl
  | cons b bs ih =>
    rw [List.length_cons] at h
    have hlt : (word bs).toNat * 2 ^ 8 < 2 ^ 32 := by
      have hthree : Bytes.toNat bs < Bytes.capacity 3 :=
        (Bytes.toNat_lt bs).trans_le (Bytes.capacity_le (by omega))
      have hcapacity : Bytes.capacity 3 = 2 ^ 24 := by decide
      rw [toNat_word (by omega)]
      omega
    -- the remaining bytes stand above the first one, which is shifted out in eight steps
    have hjoin : stepByte c b ^^^ word bs = stepBit^[8] (c ^^^ word (b :: bs)) := by
      rw [word_cons, ← BitVec.xor_assoc, iterate_xor, iterate_shiftLeft hlt, stepByte_eq]
    calc feed c (b :: bs)
        = feed (stepByte c b) bs := rfl
      _ = stepBit^[8 * bs.length] (stepByte c b ^^^ word bs) := ih (by omega) _
      _ = stepBit^[8 * bs.length + 8] (c ^^^ word (b :: bs)) := by
        rw [hjoin, Function.iterate_add_apply]
      _ = stepBit^[8 * (b :: bs).length] (c ^^^ word (b :: bs)) := by
        rw [List.length_cons, Nat.mul_add]

lemma feed_injective (bs : Bytes) : Function.Injective (feed · bs) := by
  induction bs with
  | nil => exact fun _ _ h => h
  | cons b bs ih =>
    intro c d h
    have hstep : stepByte c b = stepByte d b := ih h
    rw [stepByte_eq, stepByte_eq] at hstep
    exact (BitVec.xor_left_inj _).mp (stepBit_injective.iterate 8 hstep)

/-- A change of up to four consecutive bytes changes the register for good. -/
lemma feed_ne (hlength : bs'.length = bs.length) (hfour : bs.length ≤ 4) (hne : bs' ≠ bs)
    (c : BitVec 32) : feed c (us ++ bs' ++ vs) ≠ feed c (us ++ bs ++ vs) := by
  intro h
  simp only [feed_append] at h
  have hwords := feed_injective vs h
  rw [feed_eq (hlength.trans_le hfour), feed_eq hfour, hlength] at hwords
  have hword := (BitVec.xor_right_inj _).mp (stepBit_injective.iterate _ hwords)
  exact hne (eq_of_word_eq hlength hfour hword)

/-! ### Stored checksums -/

/-- What the register holds after some bytes and their checksum. -/
def residue : BitVec 32 := stepBit^[32] (BitVec.allOnes 32)

lemma not_eq_iff_xor {c d : BitVec 32} : ~~~c = d ↔ c ^^^ d = BitVec.allOnes 32 := by
  rw [← BitVec.xor_allOnes]
  constructor
  · rintro rfl
    rw [← BitVec.xor_assoc, BitVec.xor_self, BitVec.zero_xor]
  · intro h
    rw [← h, ← BitVec.xor_assoc, BitVec.xor_self, BitVec.zero_xor]

lemma crc32_eq_word_iff (h : stored.length = 4) :
    crc32 bs = word stored ↔ feed (BitVec.allOnes 32) (bs ++ stored) = residue := by
  rw [crc32, not_eq_iff_xor, feed_append, feed_eq h.le, h, residue]
  exact (stepBit_injective.iterate 32).eq_iff.symm

end TwoPhaseCommit.Checksum
