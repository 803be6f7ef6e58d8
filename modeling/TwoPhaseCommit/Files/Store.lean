import TwoPhaseCommit.Error.Storage
import TwoPhaseCommit.Files.Path
import TwoPhaseCommit.Files.Tree

/-!
# File store

A tree of directories and regular files. A file has a content of its own, which names refer to: a
file that is open keeps its content when its name is removed or given to another file. Files can be
locked by one holder at a time.
-/

namespace TwoPhaseCommit

/-- A tree of names, and the contents of the files that they refer to. -/
structure FileStore where
  root : Tree := .directory []
  contents : Array Bytes := #[]
  /-- The files that someone holds a lock on. -/
  locked : List FileId := []

/-- The directories below the root that a walk has gone into, innermost first, each with its
name. -/
abbrev Trail := List (String × Tree)

/-- The names from the root to the end of a trail. -/
def Trail.location (t : Trail) : List String := (t.map (·.1)).reverse

namespace FileStore

/-! ### Lookup -/

/-- The longest name that a directory can hold, in bytes. -/
def maxName : Nat := 255

/-- The longest path that can be followed, in bytes. -/
def maxPath : Nat := 4095

def here (fs : FileStore) : Trail → Tree
  | [] => fs.root
  | (_, t) :: _ => t

/-- Walk on from the end of a trail through further directories. -/
def walk (fs : FileStore) : Trail → (steps : List String) → Except IoError Trail
  | trail, [] => .ok trail
  | trail, "." :: ss => fs.walk trail ss
  | trail, ".." :: ss => fs.walk trail.tail ss
  | trail, s :: ss =>
    if s.utf8ByteSize > maxName then .error .nameTooLong
    else
      match (fs.here trail).child? s with
      | none => .error .notFound
      | some (.file _) => .error .notADirectory
      | some t => fs.walk ((s, t) :: trail) ss

/-- Follow a path up to its last component, which is not looked up. The root is the `.` of
itself. -/
def approach (fs : FileStore) (path : String) : Except IoError (Trail × String) :=
  if path.contains '\x00' then .error .zeroInPath
  else if path = "" then .error .notFound
  else if path.utf8ByteSize > maxPath then .error .nameTooLong
  else
    let parts := Path.parts path
    match parts.getLast? with
    | none => .ok ([], ".")
    | some last => do return (← fs.walk [] parts.dropLast, last)

structure Place where
  /-- The names from the root. -/
  location : List String
  /-- What is there, if anything. -/
  node : Option Node
  /-- Whether only a directory may be there. -/
  directoryOnly : Bool

/-- Follow a path to its last component, which need not exist. -/
def locate (fs : FileStore) (path : String) : Except IoError Place := do
  let (trail, last) ← fs.approach path
  if last = "." then return ⟨trail.location, some .directory, true⟩
  if last = ".." then return ⟨Trail.location trail.tail, some .directory, true⟩
  if last.utf8ByteSize > maxName then throw .nameTooLong
  let found := (fs.here trail).child? last
  return ⟨trail.location ++ [last], found.map (·.node), Path.hasTrailingSlash path⟩

/-- What stands at a path. -/
def stat (fs : FileStore) (path : String) : Except IoError Node := do
  let place ← fs.locate path
  match place.node with
  | none => throw .notFound
  | some .directory => return .directory
  | some (.file id) => if place.directoryOnly then throw .notADirectory else return .file id

def isPresent (fs : FileStore) (path : String) : Bool := (fs.stat path).isOk

def isDirectory (fs : FileStore) (path : String) : Bool :=
  match fs.stat path with
  | .ok .directory => true
  | _ => false

def file? (fs : FileStore) (path : String) : Option FileId :=
  match fs.stat path with
  | .ok (.file id) => some id
  | _ => none

/-- The file at a path that is to be opened. -/
def openFile (fs : FileStore) (path : String) : Except IoError FileId := do
  match ← fs.stat path with
  | .directory => throw .isADirectory
  | .file id => return id

def content (fs : FileStore) (id : FileId) : Bytes := fs.contents.getD id []

/-- The content of the file at a path. -/
def read (fs : FileStore) (path : String) : Except IoError Bytes :=
  fs.content <$> fs.openFile path

def readText (fs : FileStore) (path : String) : Except IoError String := do
  match Utf8.decode? (← fs.read path) with
  | some s => return s
  | none => throw .notText

/-- The path from the root of the directory or file at a path. -/
def canonical (fs : FileStore) (path : String) : Except IoError String := do
  discard (fs.stat path)
  return Path.ofComponents (← fs.locate path).location

/-! ### Change -/

/-- Let a location refer to a file or an empty directory. -/
def link (fs : FileStore) (location : List String) (node : Node) : FileStore :=
  let new := match node with
    | .directory => .directory []
    | .file id => .file id
  { fs with root := fs.root.set (some new) location }

/-- Let a location refer to nothing. -/
def unlink (fs : FileStore) (location : List String) : FileStore :=
  { fs with root := fs.root.set none location }

def setContent (fs : FileStore) (id : FileId) (bs : Bytes) : FileStore :=
  { fs with contents := fs.contents.setIfInBounds id bs }

def appendContent (fs : FileStore) (id : FileId) (bs : Bytes) : FileStore :=
  fs.setContent id (fs.content id ++ bs)

/-- Lock a file; `none` if it is locked. -/
def lock? (fs : FileStore) (id : FileId) : Option FileStore :=
  if id ∈ fs.locked then none else some { fs with locked := id :: fs.locked }

def unlock (fs : FileStore) (id : FileId) : FileStore :=
  { fs with locked := fs.locked.erase id }

end FileStore

/-! ### Programs over a file store -/

/-- A computation that may change a file store before it succeeds or fails. -/
abbrev FileM (ε : Type) := ExceptT ε (StateM FileStore)

namespace FileM

def exec {ε α : Type} (x : FileM ε α) (fs : FileStore) : Except ε α × FileStore := x.run.run fs

/-- A question to the store. -/
def ask {ε α : Type} (f : FileStore → Except ε α) : FileM ε α := do
  match f (← get) with
  | .ok a => return a
  | .error e => throw e

/-- The same computation with its errors reported as causes of others. -/
def mapError {ε δ α : Type} (f : ε → δ) (x : FileM ε α) : FileM δ α :=
  ExceptT.mk (Except.mapError f <$> x.run)

/-- Make a directory in one that exists. -/
def makeDirectory (path : String) : FileM IoError Unit := do
  let place ← ask (·.locate path)
  match place.node with
  | some _ => throw .alreadyExists
  | none => modify (·.link place.location .directory)

/-- Make the first of some directories, each of which is reached through the next, and the others as
far as they are missing. -/
def makeNested : List String → FileM IoError Unit
  | [] => return
  | path :: above => do
    match ← observing (makeDirectory path) with
    | .ok () => return
    | .error .notFound =>
      makeNested above
      match ← observing (makeDirectory path) with
      | .ok () => return
      | .error e => unless (← get).isDirectory path do throw e
    | .error e => unless (← get).isDirectory path do throw e
where
  observing (x : FileM IoError Unit) : FileM IoError (Except IoError Unit) :=
    ExceptT.mk (Except.ok <$> x.run)

/-- Make a directory and those above it, as far as they are missing. -/
def makeTree (path : String) : FileM IoError Unit :=
  if path = "" then pure () else makeNested (path :: Path.above path)

/-- The file at a path, made if it is missing. A path that ends in a slash is no file's, whatever
is there. -/
def openOrCreate (path : String) : FileM IoError FileId := do
  discard (ask (·.approach path))
  if Path.hasTrailingSlash path then throw .isADirectory
  let place ← ask (·.locate path)
  match place.node with
  | some .directory => throw .isADirectory
  | some (.file id) => return id
  | none =>
    let fs ← get
    let id := fs.contents.size
    set { fs.link place.location (.file id) with contents := fs.contents.push [] }
    return id

/-- How the system fails to write: how many bytes it has written by then, and what it reports. -/
structure WriteFault where
  written : Nat
  error : IoError

/-- Add bytes to a file. A write that fails leaves those that it has written. -/
def writeAll (id : FileId) (bs : Bytes) : (fault : Option WriteFault) → FileM IoError Unit
  | none => modify (·.appendContent id bs)
  | some f => do
    modify (·.appendContent id (bs.take f.written))
    throw f.error

/-- Write a whole file, made if it is missing. -/
def write (path : String) (bs : Bytes) : FileM IoError Unit := do
  let id ← openOrCreate path
  modify (·.setContent id bs)

/-- Give the file at one path the name of another, whose file loses it. -/
def rename (source target : String) : FileM IoError Unit := do
  let id ← ask (·.openFile source)
  let old ← ask (·.locate source)
  let new ← ask (·.locate target)
  if new.node = some .directory then throw .isADirectory
  if new.directoryOnly then throw .notADirectory
  modify fun fs => (fs.unlink old.location).link new.location (.file id)

def remove (path : String) : FileM IoError Unit := do
  discard (ask (·.openFile path))
  let place ← ask (·.locate path)
  modify (·.unlink place.location)

end FileM

end TwoPhaseCommit
