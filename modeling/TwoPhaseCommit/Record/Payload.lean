import TwoPhaseCommit.Error.Storage
import TwoPhaseCommit.Record

/-!
# Record payload

The fields of a record laid down one after the other: the id as a byte string with its length in
front, the number of the decision, the pending names with their count in front, the time. Lengths,
counts and the time take eight bytes, the decision four, all least significant byte first. Reading
takes the fields from the front and leaves what follows them.
-/

namespace TwoPhaseCommit.Payload

/-! ### Writing -/

/-- A byte string with its length in front. -/
def blob (bs : Bytes) : Bytes := Bytes.ofNat 8 bs.length ++ bs

/-- A name with its length in front. -/
def name (r : ResourceId) : Bytes := blob (Utf8.encode r.name)

def encode (r : LogRecord) : Bytes :=
  blob r.tx.bytes ++ Bytes.ofNat 4 r.decision.code ++ Bytes.ofNat 8 r.pending.length ++
    r.pending.flatMap name ++ Bytes.ofNat 8 r.timestamp.toNat

/-! ### Reading -/

/-- A reader takes a value from the front of a byte string. -/
abbrev Reader := StateT Bytes (Except PayloadFault)

/-- A number of `width` bytes. -/
def readNat (width : Nat) : Reader Nat := fun bs =>
  if bs.length < width then .error .endOfInput
  else .ok (Bytes.toNat (bs.take width), bs.drop width)

def readBytes (length : Nat) : Reader Bytes := fun bs =>
  if bs.length < length then .error .shortBytes else .ok (bs.take length, bs.drop length)

def readBlob : Reader Bytes := do readBytes (← readNat 8)

/-- An id of sixteen bytes. -/
def readTxId : Reader TxId := do
  let raw ← readBlob
  match TxId.ofBytes? raw with
  | some id => return id
  | none => throw (.idLength raw.length)

def readDecision : Reader Decision := do
  match ← readNat 4 with
  | 0 => return .committed
  | 1 => return .rolledBack
  | n => throw (.unknownDecision n)

def readText : Reader String := do
  let raw ← readBlob
  match Utf8.decode? raw with
  | some s => return s
  | none => throw (.badText ((Utf8.fault? raw).getD (.incomplete raw.length)))

def readNames : (count : Nat) → Reader (List ResourceId)
  | 0 => return []
  | n + 1 => do
    let s ← readText
    return ⟨s⟩ :: (← readNames n)

def read : Reader LogRecord := do
  let tx ← readTxId
  let decision ← readDecision
  let pending ← readNames (← readNat 8)
  let time ← readNat 8
  return ⟨tx, decision, pending, time.toUInt64⟩

end TwoPhaseCommit.Payload
