import TwoPhaseCommit.Status
import TwoPhaseCommit.Text.Hex
import TwoPhaseCommit.Text.Quoted
import TwoPhaseCommit.Text.Utf8

/-!
# Failures of storage

What can go wrong with files and with the log that is kept in one: operations on files fail, a frame
of the log is damaged or cut off, a value cannot be read back, or the settings describe no log.
-/

namespace TwoPhaseCommit

/-- A failed operation on a file. -/
inductive IoError
  | notFound
  | alreadyExists
  | notADirectory
  | isADirectory
  | nameTooLong
  /-- A path holds a zero character. -/
  | zeroInPath
  | notText
  /-- An append was made to fail on request. -/
  | injected
  | described (text : String)
deriving DecidableEq

def IoError.message : IoError → String
  | notFound => "No such file or directory (os error 2)"
  | alreadyExists => "File exists (os error 17)"
  | notADirectory => "Not a directory (os error 20)"
  | isADirectory => "Is a directory (os error 21)"
  | nameTooLong => "File name too long (os error 36)"
  | zeroInPath => "file name contained an unexpected NUL byte"
  | notText => "stream did not contain valid UTF-8"
  | injected => "injected append failure"
  | described t => t

/-- Why a stored value cannot be read, in the order in which its fields are read. -/
inductive PayloadFault
  /-- A number of fixed width runs past the end. -/
  | endOfInput
  /-- The bytes of an id or of a name run past the end. -/
  | shortBytes
  | idLength (found : Nat)
  | unknownDecision (found : Nat)
  | badText (fault : Utf8.Fault)
deriving DecidableEq

def PayloadFault.message : PayloadFault → String
  | endOfInput => "io error: unexpected end of file"
  | shortBytes => "io error: "
  | idLength n => s!"UUID parsing failed: invalid length: expected 16 bytes, found {n}"
  | unknownDecision n =>
    "invalid value: integer \x60" ++ toString n ++ "\x60, expected variant index 0 <= i < 2"
  | badText f => "string is not valid utf8: " ++ f.message

/-- What is wrong with a frame of the log. -/
inductive Damage
  /-- The length field is less than the smallest frame body. -/
  | length (found minimum : Nat)
  | checksum (expected actual : BitVec 32)
  | payload (fault : PayloadFault)
  /-- The type tag disagrees with the decision in the payload. -/
  | tag (found : UInt8) (decision : Decision)
deriving DecidableEq

/-- Eight digits of base sixteen. -/
def Damage.word (w : BitVec 32) : String := String.ofList (Hex.digits 8 w.toNat)

def Damage.message : Damage → String
  | length n m => s!"invalid record length {n} (minimum is {m})"
  | checksum e a => "CRC mismatch: expected " ++ word e ++ ", got " ++ word a
  | payload f => "deserialization failed: " ++ f.message
  | tag t d => s!"type tag {t.toNat} does not match decision {d.name}"

/-- Data that cannot be what was written. -/
inductive Corruption
  | frame (offset : Nat) (damage : Damage)
  | described (text : String)
deriving DecidableEq

def Corruption.message : Corruption → String
  | frame o d => s!"offset {o}: " ++ d.message
  | described t => t

/-- A value that cannot be stored or read back. -/
inductive SerializationFault
  | payload (fault : PayloadFault)
  | described (text : String)
deriving DecidableEq

def SerializationFault.message : SerializationFault → String
  | payload f => f.message
  | described t => t

/-- Settings with which no log can be opened. -/
inductive LogConfigError
  | missingPath
  | pathIsDirectory (path : String)
deriving DecidableEq

def LogConfigError.message : LogConfigError → String
  | missingPath => "Log path must be set when durability mode is Always"
  | pathIsDirectory p => "Log path " ++ Quoted.text p ++ " is a directory"

/-- An operation that makes no sense as requested. -/
inductive InvalidOperation
  | config (error : LogConfigError)
  | described (text : String)
deriving DecidableEq

def InvalidOperation.message : InvalidOperation → String
  | config e => e.message
  | described t => t

inductive StorageError
  | io (error : IoError)
  | serialization (fault : SerializationFault)
  | corruption (cause : Corruption)
  /-- The bytes end before the frame at `offset` does. -/
  | incomplete (offset present needed : Nat)
  | invalidOperation (cause : InvalidOperation)
deriving DecidableEq

def StorageError.message : StorageError → String
  | io e => "I/O error: " ++ e.message
  | serialization f => "Serialization error: " ++ f.message
  | corruption c => "Data corruption: " ++ c.message
  | incomplete o h n => s!"Incomplete entry at offset {o}: have {h} bytes, need {n}"
  | invalidOperation c => "Invalid operation: " ++ c.message

end TwoPhaseCommit
