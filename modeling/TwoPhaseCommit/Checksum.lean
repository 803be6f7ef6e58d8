import TwoPhaseCommit.Bytes

/-!
# The frame checksum

The cyclic redundancy check of 32 bits with the reflected generator `0xEDB88320`: the register
starts with all bits set and is complemented at the end.
-/

namespace TwoPhaseCommit.Checksum

/-- The generator polynomial, least significant bit first. -/
def generator : BitVec 32 := 0xEDB88320#32

def stepBit (c : BitVec 32) : BitVec 32 :=
  if c.getLsbD 0 then (c >>> 1) ^^^ generator else c >>> 1

def stepByte (c : BitVec 32) (b : UInt8) : BitVec 32 :=
  Nat.repeat stepBit 8 (c ^^^ b.toBitVec.setWidth 32)

def feed (c : BitVec 32) (bs : Bytes) : BitVec 32 := bs.foldl stepByte c

/-- The checksum of a byte string. -/
def crc32 (bs : Bytes) : BitVec 32 := ~~~ feed (BitVec.allOnes 32) bs

@[simp] theorem feed_nil (c : BitVec 32) : feed c [] = c := rfl

@[simp] theorem feed_append (c : BitVec 32) (bs cs : Bytes) :
    feed c (bs ++ cs) = feed (feed c bs) cs := by
  simp [feed]

end TwoPhaseCommit.Checksum
