import TwoPhaseCommit.Bytes

/-!
# UTF-8

Text is read from bytes; where they are ill formed, `Utf8.fault` says from which byte on and how
many bytes are at fault.
-/

namespace TwoPhaseCommit.Utf8

/-- Where a byte string stops being UTF-8. -/
inductive Fault
  /-- The `length` bytes from `index` on can start no character. -/
  | invalid (length index : Nat)
  /-- The bytes end within the character that starts at `index`. -/
  | incomplete (index : Nat)
deriving DecidableEq

def Fault.message : Fault → String
  | .invalid n i => s!"invalid utf-8 sequence of {n} bytes from index {i}"
  | .incomplete i => s!"incomplete utf-8 byte sequence from index {i}"

/-- Whether a byte continues a character: `0x80` to `0xBF`. -/
def isContinuation (b : UInt8) : Bool := 0x80 ≤ b && b ≤ 0xBF

/-- The ranges of the bytes that must follow a given first byte; `none` if it is no first byte. -/
def tails (b : UInt8) : Option (List (UInt8 × UInt8)) :=
  let c := (0x80, 0xBF)
  if b < 0x80 then some []
  else if 0xC2 ≤ b ∧ b ≤ 0xDF then some [c]
  else if b = 0xE0 then some [(0xA0, 0xBF), c]
  else if b = 0xED then some [(0x80, 0x9F), c]
  else if 0xE1 ≤ b ∧ b ≤ 0xEF then some [c, c]
  else if b = 0xF0 then some [(0x90, 0xBF), c, c]
  else if b = 0xF4 then some [(0x80, 0x8F), c, c]
  else if 0xF1 ≤ b ∧ b ≤ 0xF3 then some [c, c, c]
  else none

/-- The first fault of a byte string that starts at `index`. Within a character that starts at
`start`, `want` holds the ranges of the bytes still to come. -/
def faultFrom (start : Nat) : (want : List (UInt8 × UInt8)) → (index : Nat) → Bytes → Option Fault
  | [], _, [] => none
  | _ :: _, _, [] => some (.incomplete start)
  | [], i, b :: bs =>
    match tails b with
    | some want => faultFrom i want (i + 1) bs
    | none => some (.invalid 1 i)
  | (lo, hi) :: want, i, b :: bs =>
    if lo ≤ b ∧ b ≤ hi then faultFrom start want (i + 1) bs else some (.invalid (i - start) start)

def fault? (bs : Bytes) : Option Fault := faultFrom 0 [] 0 bs

def encode (s : String) : Bytes := s.toUTF8.data.toList

/-- The text that a byte string spells, if it is well formed. -/
def decode? (bs : Bytes) : Option String := String.fromUTF8? ⟨bs.toArray⟩

end TwoPhaseCommit.Utf8
