import TwoPhaseCommit.Toml.Moment
import TwoPhaseCommit.Toml.Text
import TwoPhaseCommit.Toml.Value

/-!
# Reading documents

A document is read into statements, one for each line that is not blank, and the statements are
carried out one after the other.
-/

namespace TwoPhaseCommit.Toml

/-- A reader takes a value from the front of a text, if one of its kind is there. -/
abbrev Reader := StateT (List Char) Option

namespace Reader

/-! ### Characters and blanks -/

/-- Whether the text goes on with `c`, which is then taken. -/
def next? (c : Char) : Reader Bool := fun cs =>
  match cs with
  | d :: rest => if d = c then some (true, rest) else some (false, cs)
  | [] => some (false, cs)

def char (c : Char) : Reader Unit := do
  unless ← next? c do failure

def span (p : Char → Bool) : Reader (List Char) := fun cs => some (cs.takeWhile p, cs.dropWhile p)

def blanks : Reader Unit := discard (span fun c => c == ' ' || c == '\t')

/-- The end of a line: its blanks, a comment, and a line feed with or without a carriage return, or
the end of the text. -/
def endOfLine : Reader Unit := do
  blanks
  if ← next? '#' then discard (span Text.isPrintable)
  match ← get with
  | [] => return
  | '\n' :: cs | '\r' :: '\n' :: cs => set cs
  | _ => failure

/-- Skip blanks, ends of lines and comments, each of which ends with its line. -/
def skipLines : (comment : Bool) → List Char → Option (List Char)
  | _, '\n' :: cs | _, '\r' :: '\n' :: cs => skipLines false cs
  | false, ' ' :: cs | false, '\t' :: cs => skipLines false cs
  | false, '#' :: cs => skipLines true cs
  | false, cs => some cs
  | true, c :: cs => if Text.isPrintable c then skipLines true cs else none
  | true, [] => none

/-- What may stand between the items of an array. -/
def lines : Reader Unit := fun cs => (fun rest => ((), rest)) <$> skipLines false cs

/-! ### Keys -/

def isKeyChar (c : Char) : Bool := c.isAlphanum || c == '-' || c == '_'

def key : Reader String := do
  match ← get with
  | '"' :: _ | '\'' :: _ => Text.readLine
  | _ =>
    let cs ← span isKeyChar
    if cs.isEmpty then failure
    return String.ofList cs

/-- The parts of a key with dots between them, at most `limit` of them. -/
def parts : (limit : Nat) → Reader (List String)
  | 0 => failure
  | limit + 1 => do
    blanks
    let k ← key
    blanks
    if ← next? '.' then return k :: (← parts limit) else return [k]

/-- How deeply values may be nested, and how many parts a key may have. -/
def maxDepth : Nat := 79

/-- A key: the path to its last part, and that part. -/
def path : Reader (List String × String) := do
  let ks ← parts maxDepth
  return (ks.dropLast, ks.getLastD "")

/-! ### Values -/

/-- A character of a number, a time or a word. -/
def isScalarChar (c : Char) : Bool :=
  c.isAlphanum || c == '+' || c == '-' || c == '_' || c == '.' || c == ':'

/-- The value that a text without quotes spells. -/
def scalar? (cs : List Char) : Option Value :=
  if cs = "true".toList then some (.boolean true)
  else if cs = "false".toList then some (.boolean false)
  else if Moment.isDate cs || Moment.isTime cs || Moment.isDateTime cs then some .time
  else
    match Number.integer? cs with
    | some n => some (.integer n)
    | none => if Number.isFloat cs then some .float else none

/-- A value without quotes. A date may be followed by one space and a time. -/
def scalar : Reader Value := do
  let cs ← span isScalarChar
  if Moment.isDate cs then
    match ← get with
    | ' ' :: rest =>
      let time := rest.takeWhile isScalarChar
      if Moment.isZonedTime time then set (rest.drop time.length)
    | _ => pure ()
  StateT.lift (scalar? cs)

/-- The items of an array after its opening bracket. -/
def items (item : Reader Value) : (fuel : Nat) → Reader (List Value)
  | 0 => failure
  | fuel + 1 => do
    lines
    if ← next? ']' then return []
    let v ← item
    lines
    if ← next? ',' then return v :: (← items item fuel)
    char ']'
    return [v]

def pair (value : Reader Value) : Reader (List String × String × Value) := do
  let (ks, k) ← path
  char '='
  blanks
  let v ← value
  blanks
  return (ks, k, v)

/-- The pairs between braces, up to the closing one. -/
def pairs (value : Reader Value) : (fuel : Nat) → Reader (List (List String × String × Value))
  | 0 => failure
  | fuel + 1 => do
    let p ← pair value
    if ← next? ',' then return p :: (← pairs value fuel)
    char '\x7d'
    return [p]

/-- A value in which arrays and tables are nested at most `depth` deep. -/
def value : (depth : Nat) → Reader Value
  | 0 => do
    match ← get with
    | '"' :: _ | '\'' :: _ => Value.string <$> Text.read
    | _ => scalar
  | depth + 1 => do
    match ← get with
    | '"' :: _ | '\'' :: _ => Value.string <$> Text.read
    | '[' :: rest =>
      set rest
      Value.array <$> items (value depth) (rest.length + 1)
    | '\x7b' :: rest =>
      set rest
      blanks
      if ← next? '\x7d' then return .table .inline []
      let ps ← pairs (value depth) (rest.length + 1)
      match Entries.ofPairs? ps with
      | some es => return .table .inline es
      | none => failure
    | _ => scalar

/-! ### Statements -/

/-- A header between brackets, after the first of them. -/
def header : Reader Statement := do
  if ← next? '[' then
    let (ks, k) ← path
    char ']'
    char ']'
    return .element ks k
  else
    let (ks, k) ← path
    char ']'
    return .table ks k

def statements : (fuel : Nat) → Reader (List Statement)
  | 0 => failure
  | fuel + 1 => do
    blanks
    match ← get with
    | [] => return []
    | '#' :: _ | '\n' :: _ | '\r' :: _ =>
      endOfLine
      statements fuel
    | '[' :: rest =>
      set rest
      let s ← header
      endOfLine
      return s :: (← statements fuel)
    | _ =>
      let (ks, k, v) ← pair (value maxDepth)
      endOfLine
      return .pair ks k v :: (← statements fuel)

end Reader

/-- The text without the mark that may tell its byte order. -/
def withoutMark : List Char → List Char
  | '\uFEFF' :: cs => cs
  | cs => cs

/-- The entries of a document; `none` if it is not well formed or says something twice. -/
def read (s : String) : Option Entries := do
  let cs := withoutMark s.toList
  let (ss, _) ← Reader.statements (cs.length + 1) cs
  Document.build? ss

end TwoPhaseCommit.Toml
