import TwoPhaseCommit.Log

/-!
# Scripts over one log file

A `LogDesk` holds a file store and at most one open log in it. Scripted actions work on the log, or
behind its back on its file.
-/

namespace TwoPhaseCommit

/-- A file store with a log that may be open. -/
structure LogDesk where
  /-- The directory to which names are relative. -/
  root : String
  path : String
  files : FileStore
  log : Option FileLog := none

namespace LogDesk

inductive Action
  | «open»
  | close
  | append (record : LogRecord)
  | replace (records : List LogRecord)
  | readAll
  | scan
  | state
  /-- Add bytes to the file, made if it is missing. -/
  | rawAppend (bytes : Bytes)
  | rawWrite (bytes : Bytes)
  /-- Flip bits of one byte of the file. -/
  | rawFlip (index : Nat) (mask : UInt8)
  | rawTruncate (length : Nat)
  | remove
  | makeDirectory (name : String)
  | touch (name : String)
  | isPresent (name : String)
  | content

inductive Answer
  | done
  | closed
  | failed (error : StorageError)
  | opened (torn size : Nat) (path : String)
  | records (rs : List LogRecord)
  | scanned (scan : LogScan)
  | state (torn size : Nat) (durable : Bool)
  | present (yes : Bool)
  | content (bytes : Option Bytes)

def fileContent? (d : LogDesk) : Option Bytes := (d.files.file? d.path).map d.files.content

/-- Run a computation over the files and answer with its result. -/
def run {α : Type} (d : LogDesk) (x : FileM StorageError α) (answer : α → Answer)
    (log : α → Option FileLog) : Answer × LogDesk :=
  match x.exec d.files with
  | (.ok a, files) => (answer a, { d with files, log := log a })
  | (.error e, files) => (.failed e, { d with files })

/-- Run a computation on the open log. -/
def onLog {α : Type} (d : LogDesk) (x : FileLog → FileM StorageError α)
    (answer : FileLog → α → Answer) (log : FileLog → α → FileLog) : Answer × LogDesk :=
  match d.log with
  | none => (.closed, d)
  | some l => d.run (x l) (answer l) fun a => some (log l a)

def raw (d : LogDesk) (f : Bytes → Bytes) : Answer × LogDesk :=
  match d.files.openFile d.path with
  | .error e => (.failed (.io e), d)
  | .ok id => (.done, { d with files := d.files.setContent id (f (d.files.content id)) })

def step (d : LogDesk) : Action → Answer × LogDesk
  | .open =>
    { d with log := none }.run (FileLog.open d.path)
      (fun l => .opened l.tornAtOpen l.size l.path) some
  | .close => (.done, { d with log := none })
  | .append r => d.onLog (·.append r none) (fun _ _ => .done) (fun _ l => l)
  | .replace rs => d.onLog (·.replace rs) (fun _ _ => .done) (fun _ l => l)
  | .readAll => d.onLog (·.readAll) (fun _ => .records) (fun l _ => l)
  | .scan => d.onLog (·.scan) (fun _ => .scanned) (fun l _ => l)
  | .state => d.onLog (fun _ => pure ()) (fun l _ => .state l.tornAtOpen l.size true) (fun l _ => l)
  | .rawAppend bs =>
    d.run (FileLog.io (FileM.openOrCreate d.path) >>= fun id => modify (·.appendContent id bs))
      (fun _ => .done) (fun _ => d.log)
  | .rawWrite bs => d.run (FileLog.io (FileM.write d.path bs)) (fun _ => .done) (fun _ => d.log)
  | .rawFlip i m => d.raw fun bs => bs.set i (bs.getD i 0 ^^^ m)
  | .rawTruncate n => d.raw (·.take n)
  | .remove => d.run (FileLog.io (FileM.remove d.path)) (fun _ => .done) (fun _ => d.log)
  | .makeDirectory n =>
    d.run (FileLog.io (FileM.makeTree (Path.join d.root n))) (fun _ => .done) (fun _ => d.log)
  | .touch n =>
    d.run (FileLog.io (FileM.write (Path.join d.root n) [])) (fun _ => .done) (fun _ => d.log)
  | .isPresent n => (.present (d.files.isPresent (Path.join d.root n)), d)
  | .content => (.content d.fileContent?, d)

end LogDesk

end TwoPhaseCommit
