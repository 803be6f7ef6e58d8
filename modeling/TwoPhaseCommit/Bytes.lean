/-!
# Byte strings

A log file is a string of bytes. Numbers are laid down in it with a fixed width, least significant
byte first.
-/

namespace TwoPhaseCommit

abbrev Bytes := List UInt8

namespace Bytes

/-- The `width` low-order bytes of `n`, least significant first. -/
def ofNat : (width : Nat) → (n : Nat) → Bytes
  | 0, _ => []
  | w + 1, n => n.toUInt8 :: ofNat w (n / 256)

/-- The number a byte string spells, least significant byte first. -/
def toNat : Bytes → Nat
  | [] => 0
  | b :: bs => b.toNat + 256 * toNat bs

/-- How many numbers have a spelling of `width` bytes. -/
def capacity : (width : Nat) → Nat
  | 0 => 1
  | w + 1 => 256 * capacity w

@[simp] theorem length_ofNat (w n : Nat) : (ofNat w n).length = w := by
  induction w generalizing n with
  | zero => rfl
  | succ w ih => simp [ofNat, ih]

/-- A number that fits the width is read back. -/
theorem toNat_ofNat {w n : Nat} (h : n < capacity w) : toNat (ofNat w n) = n := by
  induction w generalizing n with
  | zero =>
    have h0 : n = 0 := by simp only [capacity] at h; omega
    rw [h0, ofNat, toNat]
  | succ w ih =>
    have hq : n / 256 < capacity w := by simp only [capacity] at h; omega
    have hm : (n.toUInt8).toNat = n % 256 := by simp [Nat.toUInt8]
    simp only [ofNat, toNat, ih hq, hm]
    omega

/-- Every byte string is the spelling of its number. -/
theorem ofNat_toNat (bs : Bytes) : ofNat bs.length (toNat bs) = bs := by
  induction bs with
  | nil => rfl
  | cons b bs ih =>
    have hb : b.toNat < 256 := b.toNat_lt
    have h1 : (b.toNat + 256 * toNat bs).toUInt8 = b := by
      apply UInt8.toNat_inj.1
      simp only [Nat.toUInt8, UInt8.toNat_ofNat']
      omega
    have h2 : (b.toNat + 256 * toNat bs) / 256 = toNat bs := by omega
    simp only [List.length_cons, ofNat, toNat, h1, h2, ih]

theorem toNat_lt (bs : Bytes) : toNat bs < capacity bs.length := by
  induction bs with
  | nil => decide
  | cons b bs ih =>
    have hb : b.toNat < 256 := b.toNat_lt
    simp only [toNat, List.length_cons, capacity]
    omega

theorem ofNat_toNat_of_length {bs : Bytes} {w : Nat} (h : bs.length = w) :
    ofNat w (toNat bs) = bs := by
  subst h
  exact ofNat_toNat bs

theorem toNat_lt_of_length {bs : Bytes} {w : Nat} (h : bs.length = w) : toNat bs < capacity w := by
  subst h
  exact toNat_lt bs

/-- A wider field states more numbers. -/
theorem capacity_le {v w : Nat} (h : v ≤ w) : capacity v ≤ capacity w := by
  induction h with
  | refl => exact Nat.le_refl _
  | step _ ih =>
    simp only [capacity]
    omega

theorem capacity_eight : capacity 8 = UInt64.size := by decide

end Bytes

end TwoPhaseCommit
