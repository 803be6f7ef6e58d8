import TwoPhaseCommit.Files.Store
import TwoPhaseCommit.Log.Scan

/-!
# File log

A log kept in one file. Opening it cuts off a torn final append, so that later appends start where a
frame ends. Appends go to the file that was opened, whatever its name refers to by then; scans read
the file that has the name.
-/

namespace TwoPhaseCommit

structure FileLog where
  path : String
  /-- The file that appends go to. -/
  file : FileId
  /-- How many bytes the log holds, by the count of what was opened and written. -/
  size : Nat
  /-- How many bytes of a torn append were cut off when the log was opened. -/
  tornAtOpen : Nat
deriving DecidableEq

namespace FileLog

def io {α : Type} (x : FileM IoError α) : FileM StorageError α := x.mapError .io

/-- The scan of the file that has the name of a log. -/
def scanPath (path : String) : FileM StorageError LogScan := do
  let bytes ← io (FileM.ask (·.read path))
  FileM.ask fun _ => LogScan.scan bytes

/-- Open a log, or create an empty one together with the directories it needs. -/
def «open» (path : String) : FileM StorageError FileLog := do
  match Path.parent? path with
  | some dir => io (FileM.makeTree dir)
  | none => pure ()
  let file ← io (FileM.openOrCreate path)
  let scan ← scanPath path
  if scan.tornBytes > 0 then
    modify fun fs => fs.setContent file ((fs.content file).take scan.validLength)
  let file ← io (FileM.ask (·.openFile path))
  return ⟨path, file, scan.validLength, scan.tornBytes⟩

def scan (log : FileLog) : FileM StorageError LogScan := scanPath log.path

def readAll (log : FileLog) : FileM StorageError (List LogRecord) := do
  return (← log.scan).records

/-- Append a record, unless the system fails to write its frame. What it has written then stays. -/
def append (log : FileLog) (r : LogRecord) (fault : Option FileM.WriteFault) :
    FileM StorageError FileLog := do
  let frame := Frame.encode r
  io (FileM.writeAll log.file frame fault)
  return { log with size := log.size + frame.length }

/-- Where a new content is written before it takes the name of the log. -/
def temporary (log : FileLog) : String :=
  Path.withFileName log.path ((Path.fileName? log.path).getD "" ++ ".rewrite")

def replace (log : FileLog) (rs : List LogRecord) : FileM StorageError FileLog := do
  let bytes := LogScan.frames rs
  io (FileM.write log.temporary bytes)
  io (FileM.rename log.temporary log.path)
  let file ← io (FileM.ask (·.openFile log.path))
  return { log with file, size := bytes.length }

end FileLog

end TwoPhaseCommit
