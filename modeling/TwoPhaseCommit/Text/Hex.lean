/-!
# Hexadecimal digits

Reading and writing of single digits, of fixed-width numbers and of byte strings in base sixteen.
Digits are written in lower case and read in either case.
-/

namespace TwoPhaseCommit.Hex

/-- The lower-case digit of value `n % 16`. -/
def digit (n : Nat) : Char :=
  let n := n % 16
  if n < 10 then Char.ofNat ('0'.toNat + n) else Char.ofNat ('a'.toNat + (n - 10))

def value? (c : Char) : Option Nat :=
  if '0' ≤ c ∧ c ≤ '9' then some (c.toNat - '0'.toNat)
  else if 'a' ≤ c ∧ c ≤ 'f' then some (c.toNat - 'a'.toNat + 10)
  else if 'A' ≤ c ∧ c ≤ 'F' then some (c.toNat - 'A'.toNat + 10)
  else none

/-- The last `width` digits of `n`, most significant first. -/
def digits : (width : Nat) → (n : Nat) → List Char
  | 0, _ => []
  | w + 1, n => digits w (n / 16) ++ [digit n]

@[simp] theorem length_digits (w n : Nat) : (digits w n).length = w := by
  induction w generalizing n with
  | zero => rfl
  | succ w ih => simp [digits, ih]

/-- The number that a string of digits spells; `none` if a character is not a digit. -/
def toNat? (cs : List Char) : Option Nat :=
  cs.foldl (fun acc c => return 16 * (← acc) + (← value? c)) (some 0)

def ofBytes : List UInt8 → List Char
  | [] => []
  | b :: bs => digit (b.toNat / 16) :: digit b.toNat :: ofBytes bs

/-- Inverse of `ofBytes`, taking digits of either case. -/
def toBytes? : List Char → Option (List UInt8)
  | [] => some []
  | [_] => none
  | h :: l :: cs => do
    let high ← value? h
    let low ← value? l
    return (16 * high + low).toUInt8 :: (← toBytes? cs)

end TwoPhaseCommit.Hex
