import TwoPhaseCommit.Checksum
import TwoPhaseCommit.Record.Payload

/-!
# Frames

In the log a record is framed: the length of what follows in four bytes, a tag for the decision, the
payload, and the checksum of tag and payload in four bytes.
-/

namespace TwoPhaseCommit.Frame

def tag : Decision → UInt8
  | .committed => 1
  | .rolledBack => 2

/-- The smallest length field: a tag and a checksum. -/
def minimum : Nat := 5

/-- The four checksum bytes of a tag and a payload. -/
def checksum (tag : UInt8) (payload : Bytes) : Bytes :=
  Bytes.ofNat 4 (Checksum.crc32 (tag :: payload)).toNat

/-- The frame with a given tag and payload. -/
def wrap (tag : UInt8) (payload : Bytes) : Bytes :=
  Bytes.ofNat 4 (1 + payload.length + 4) ++ tag :: payload ++ checksum tag payload

def encode (r : LogRecord) : Bytes := wrap (tag r.decision) (Payload.encode r)

/-- Whether the length of a record's frame can be stated in its length field. -/
def Fits (r : LogRecord) : Prop := 1 + (Payload.encode r).length + 4 < Bytes.capacity 4

instance (r : LogRecord) : Decidable (Fits r) := inferInstanceAs (Decidable (_ < _))

/-- The size that the frame at the front of `buf` claims to have, its length field included; `none`
if the length field is cut off. -/
def declared? (buf : Bytes) : Option Nat :=
  if buf.length < 4 then none else some (4 + Bytes.toNat (buf.take 4))

/-- Read the record at the front of `buf`, which lies at `offset` of a file; the result has the size
of its frame. -/
def decode (buf : Bytes) (offset : Nat) : Except StorageError (LogRecord × Nat) :=
  let damaged (d : Damage) := Except.error (.corruption (.frame offset d))
  if buf.length < 4 then .error (.incomplete offset buf.length 4)
  else
    let length := Bytes.toNat (buf.take 4)
    if length < minimum then damaged (.length length minimum)
    else if buf.length < 4 + length then .error (.incomplete offset buf.length (4 + length))
    else
      let tagged := (buf.drop 4).take (length - 4)
      let expected := BitVec.ofNat 32 (Bytes.toNat ((buf.drop length).take 4))
      let actual := Checksum.crc32 tagged
      if actual ≠ expected then damaged (.checksum expected actual)
      else
        match tagged with
        | [] => damaged (.length length minimum)
        | found :: payload =>
          match Payload.read payload with
          | .error f => damaged (.payload f)
          | .ok (r, _) =>
            if tag r.decision = found then .ok (r, 4 + length)
            else damaged (.tag found r.decision)

/-- A decoded frame is not empty and lies within the bytes it was read from. -/
theorem decode_size {buf : Bytes} {offset : Nat} {r : LogRecord} {n : Nat}
    (h : decode buf offset = .ok (r, n)) : 4 < n ∧ n ≤ buf.length := by
  unfold decode at h
  simp only at h
  repeat' split at h
  all_goals try cases h
  simp only [minimum] at *
  omega

end TwoPhaseCommit.Frame
