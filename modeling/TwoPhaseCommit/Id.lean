import TwoPhaseCommit.Bytes
import TwoPhaseCommit.Text.Hex

/-!
# Identifiers

A transaction is known everywhere by a `TxId` of sixteen bytes, a resource by a stable name, its
`ResourceId`, and a task by its number. Transaction ids are written and read as UUIDs.
-/

namespace TwoPhaseCommit

/-! ### Transactions -/

/-- Globally unique identifier of a transaction. -/
structure TxId where
  /-- The sixteen bytes, most significant first. -/
  bytes : Bytes
  length_eq : bytes.length = 16 := by decide
deriving DecidableEq

namespace TxId

/-- The id used where no transaction is associated. -/
def nil : TxId := ⟨List.replicate 16 0, by decide⟩

instance : Inhabited TxId := ⟨nil⟩

/-- The id with the given bytes, if there are sixteen of them. -/
def ofBytes? (bs : Bytes) : Option TxId :=
  if h : bs.length = 16 then some ⟨bs, h⟩ else none

@[simp] theorem ofBytes?_bytes (id : TxId) : ofBytes? id.bytes = some id := by
  simp [ofBytes?, id.length_eq]

theorem bytes_of_ofBytes? {bs : Bytes} {id : TxId} (h : ofBytes? bs = some id) : id.bytes = bs := by
  unfold ofBytes? at h
  split at h
  · cases h; rfl
  · cases h

/-- Whether this is the id that stands for no transaction. -/
def isNil (id : TxId) : Bool := id == nil

/-- Order of ids: that of their bytes. -/
def le (a b : TxId) : Bool := a.bytes ≤ b.bytes

/-- The members of a list in order, each once. -/
def sorted (ids : List TxId) : List TxId := (ids.mergeSort le).eraseReps

/-- The four-bit version number: the upper half of byte 6. -/
def version (id : TxId) : Nat := (id.bytes.getD 6 0).toNat / 16

/-- The two-bit variant: the top of byte 8. -/
def variantBits (id : TxId) : Nat := (id.bytes.getD 8 0).toNat / 64

/-- The `n`-th id handed out to a new transaction under a seed: version 4, variant 2, the seed but
for the version in the first eight bytes, and the low 62 bits of `n` in the last eight. -/
def mint (seed n : Nat) : TxId where
  bytes := [(seed >>> 56).toUInt8, (seed >>> 48).toUInt8, (seed >>> 40).toUInt8,
    (seed >>> 32).toUInt8, (seed >>> 24).toUInt8, (seed >>> 16).toUInt8,
    (0x40 + (seed >>> 8) % 16).toUInt8, seed.toUInt8, (0x80 + (n >>> 56) % 64).toUInt8,
    (n >>> 48).toUInt8, (n >>> 40).toUInt8, (n >>> 32).toUInt8, (n >>> 24).toUInt8,
    (n >>> 16).toUInt8, (n >>> 8).toUInt8, n.toUInt8]
  length_eq := rfl

/-- The sizes of the five groups of digits, and with them the places of the hyphens. -/
def groups : List Nat := [8, 4, 4, 4, 12]

def hyphenate : List Nat → List Char → List Char
  | [], cs | [_], cs => cs
  | n :: ns, cs => cs.take n ++ '-' :: hyphenate ns (cs.drop n)

/-- Remove the hyphens between groups; `none` where one is missing. -/
def unhyphenate? : List Nat → List Char → Option (List Char)
  | [], cs | [_], cs => some cs
  | n :: ns, cs =>
    match cs.drop n with
    | '-' :: rest => (cs.take n ++ ·) <$> unhyphenate? ns rest
    | _ => none

/-- The hyphenated lower-case form. -/
def text (id : TxId) : String := String.ofList (hyphenate groups (Hex.ofBytes id.bytes))

instance : ToString TxId := ⟨text⟩

def ofDigits? (cs : List Char) : Option TxId := Hex.toBytes? cs >>= ofBytes?

def ofHyphenated? (cs : List Char) : Option TxId :=
  if cs.length = 36 then unhyphenate? groups cs >>= ofDigits? else none

/-- Read an id: thirty-two digits, the hyphenated form, that form in braces, or that form after
`urn:uuid:` in any case. Digits may be of either case; nothing else is allowed. -/
def parse (s : String) : Option TxId :=
  let cs := s.toList
  match cs.length with
  | 32 => ofDigits? cs
  | 36 => ofHyphenated? cs
  | 38 =>
    if cs.head? = some '{' ∧ cs.getLast? = some '}' then ofHyphenated? cs.tail.dropLast else none
  | 45 =>
    if (cs.take 9).map Char.toLower = "urn:uuid:".toList then ofHyphenated? (cs.drop 9) else none
  | _ => none

end TxId

/-! ### Resources and tasks -/

/-- Stable name of a transactional resource: what the log records for a pending participant. -/
structure ResourceId where
  name : String
deriving DecidableEq, Inhabited

instance : ToString ResourceId := ⟨ResourceId.name⟩

/-- Order of names: that of their bytes, which is that of their characters. -/
def ResourceId.le (a b : ResourceId) : Bool := a.name ≤ b.name

def ResourceId.sorted (ids : List ResourceId) : List ResourceId := (ids.mergeSort le).eraseReps

/-- Number of a logical unit of work that can own a transaction. -/
structure TaskId where
  number : Nat
deriving DecidableEq, Inhabited

instance : ToString TaskId := ⟨fun t => "TaskId(" ++ toString t.number ++ ")"⟩

end TwoPhaseCommit
