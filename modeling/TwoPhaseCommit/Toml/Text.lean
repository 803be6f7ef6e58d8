import TwoPhaseCommit.Text.Hex

/-!
# Strings

A string stands between quotes or apostrophes, one for a string on one line and three for one that
may go over several. Between quotes a backslash starts an escape; between apostrophes every
character stands for itself. `write` chooses the plainest of the four forms that can hold a text.
-/

namespace TwoPhaseCommit.Toml.Text

/-- Whether a character may stand on a line: a tab, or no control character. -/
def isPrintable (c : Char) : Bool := c == '\t' || (0x20 ≤ c.toNat && c.toNat ≠ 0x7F)

/-! ### Reading -/

def codePoint? (digits : List Char) : Option Char := do
  let n ← Hex.toNat? digits
  if n.isValidChar then some (Char.ofNat n) else none

/-- What a backslash and one letter stand for. -/
def escaped? : Char → Option Char
  | 'b' => some '\x08'
  | 't' => some '\t'
  | 'n' => some '\n'
  | 'f' => some '\x0c'
  | 'r' => some '\r'
  | '"' => some '"'
  | '\\' => some '\\'
  | _ => none

def push (c : Char) (read : List Char × List Char) : List Char × List Char := (c :: read.1, read.2)

/-- The string up to the closing quote, and what follows it. -/
def basic : List Char → Option (List Char × List Char)
  | '"' :: cs => some ([], cs)
  | '\\' :: 'u' :: a :: b :: c :: d :: cs => do
    let x ← codePoint? [a, b, c, d]
    return push x (← basic cs)
  | '\\' :: 'U' :: a :: b :: c :: d :: e :: f :: g :: h :: cs => do
    let x ← codePoint? [a, b, c, d, e, f, g, h]
    return push x (← basic cs)
  | '\\' :: x :: cs => do
    let x ← escaped? x
    return push x (← basic cs)
  | c :: cs => if isPrintable c then push c <$> basic cs else none
  | [] => none

/-- The string up to the closing apostrophe, and what follows it. -/
def literal : List Char → Option (List Char × List Char)
  | '\'' :: cs => some ([], cs)
  | c :: cs => if isPrintable c then push c <$> literal cs else none
  | [] => none

/-- What is skipped after a backslash at the end of a line. -/
inductive Fold
  /-- Nothing: no such backslash came before. -/
  | none
  /-- The blanks up to the end of the line, which must follow. -/
  | line
  /-- Blanks and further ends of lines. -/
  | all
deriving DecidableEq

/-- The string up to the three closing quotes, and what follows it. One or two quotes may stand
directly before the closing ones. -/
def multilineBasic : Fold → List Char → Option (List Char × List Char)
  | .line, ' ' :: cs | .line, '\t' :: cs => multilineBasic .line cs
  | .line, '\n' :: cs | .line, '\r' :: '\n' :: cs => multilineBasic .all cs
  | .line, _ => none
  | .all, ' ' :: cs | .all, '\t' :: cs | .all, '\n' :: cs | .all, '\r' :: '\n' :: cs =>
    multilineBasic .all cs
  | _, '"' :: '"' :: '"' :: '"' :: '"' :: cs => some (['"', '"'], cs)
  | _, '"' :: '"' :: '"' :: '"' :: cs => some (['"'], cs)
  | _, '"' :: '"' :: '"' :: cs => some ([], cs)
  | _, '\\' :: 'u' :: a :: b :: c :: d :: cs => do
    let x ← codePoint? [a, b, c, d]
    return push x (← multilineBasic .none cs)
  | _, '\\' :: 'U' :: a :: b :: c :: d :: e :: f :: g :: h :: cs => do
    let x ← codePoint? [a, b, c, d, e, f, g, h]
    return push x (← multilineBasic .none cs)
  | _, '\\' :: '\r' :: '\n' :: cs => multilineBasic .all cs
  | _, '\\' :: x :: cs =>
    if x = '\n' then multilineBasic .all cs
    else if x = ' ' ∨ x = '\t' then multilineBasic .line cs
    else do
      let x ← escaped? x
      return push x (← multilineBasic .none cs)
  | _, '\r' :: '\n' :: cs => push '\n' <$> multilineBasic .none cs
  | _, c :: cs => if c = '\n' ∨ isPrintable c then push c <$> multilineBasic .none cs else none
  | _, [] => none

/-- The string up to the three closing apostrophes, and what follows it. One or two apostrophes may
stand directly before the closing ones. -/
def multilineLiteral : List Char → Option (List Char × List Char)
  | '\'' :: '\'' :: '\'' :: '\'' :: '\'' :: cs => some (['\'', '\''], cs)
  | '\'' :: '\'' :: '\'' :: '\'' :: cs => some (['\''], cs)
  | '\'' :: '\'' :: '\'' :: cs => some ([], cs)
  | '\r' :: '\n' :: cs => push '\n' <$> multilineLiteral cs
  | c :: cs => if c = '\n' ∨ isPrintable c then push c <$> multilineLiteral cs else none
  | [] => none

/-- Skip the end of line that may follow three opening quotes. -/
def afterOpening : List Char → List Char
  | '\n' :: cs | '\r' :: '\n' :: cs => cs
  | cs => cs

/-- The string on one line at the front of a text, and what follows it. -/
def readLine : List Char → Option (String × List Char)
  | '"' :: cs => (fun p => (String.ofList p.1, p.2)) <$> basic cs
  | '\'' :: cs => (fun p => (String.ofList p.1, p.2)) <$> literal cs
  | _ => none

/-- The string in any form at the front of a text, and what follows it. -/
def read : List Char → Option (String × List Char)
  | '"' :: '"' :: '"' :: cs =>
    (fun p => (String.ofList p.1, p.2)) <$> multilineBasic .none (afterOpening cs)
  | '\'' :: '\'' :: '\'' :: cs =>
    (fun p => (String.ofList p.1, p.2)) <$> multilineLiteral (afterOpening cs)
  | cs => readLine cs

/-! ### Writing -/

/-- Whether a character can only be written as an escape: a control character other than a tab or a
line feed. -/
def needsEscape (c : Char) : Bool := !isPrintable c && c != '\n'

def longestRun (x : Char) (cs : List Char) : Nat :=
  (cs.foldl (fun (longest, run) c =>
    let run := if c = x then run + 1 else 0
    (max longest run, run)) ((0, 0) : Nat × Nat)).1

def escape : Char → List Char
  | '\x08' => ['\\', 'b']
  | '\t' => ['\\', 't']
  | '\n' => ['\\', 'n']
  | '\x0c' => ['\\', 'f']
  | '\r' => ['\\', 'r']
  | '"' => ['\\', '"']
  | '\\' => ['\\', '\\']
  | c => '\\' :: 'u' :: (Hex.digits 4 c.toNat).map Char.toUpper

/-- A text with escapes. Up to `quotes` quotes in a row are left as they are; `lines` says whether
line feeds are. The count of quotes starts anew after an escape. -/
def escapeAll (quotes : Nat) (lines : Bool) : (run : Nat) → List Char → List Char
  | _, [] => []
  | run, c :: cs =>
    if c = '"' ∧ run < quotes then c :: escapeAll quotes lines (run + 1) cs
    else if c = '"' ∨ c = '\\' ∨ c = '\t' ∨ needsEscape c ∨ (c = '\n' ∧ !lines) then
      escape c ++ escapeAll quotes lines 0 cs
    else c :: escapeAll quotes lines 0 cs

/-- A text between three quotes or apostrophes; one of several lines starts on a new line. -/
def triple (q : Char) (lines : Bool) (cs : List Char) : List Char :=
  [q, q, q] ++ (if lines then ['\n'] else []) ++ cs ++ [q, q, q]

/-- The written form of a text. Tabs are left as they are only between apostrophes. -/
def write (s : String) : String :=
  let cs := s.toList
  let lines := cs.contains '\n'
  let control := cs.any needsEscape
  let escapes := control || cs.contains '\\'
  let quotes := longestRun '"' cs
  let apostrophes := longestRun '\'' cs
  String.ofList <|
    if !escapes ∧ quotes = 0 ∧ !lines then '"' :: escapeAll 0 false 0 cs ++ ['"']
    else if !control ∧ apostrophes = 0 ∧ !lines then '\'' :: cs ++ ['\'']
    else if !escapes ∧ quotes ≤ 2 then triple '"' lines (escapeAll 2 true 0 cs)
    else if !control ∧ apostrophes ≤ 2 then triple '\'' lines cs
    else if lines then triple '"' lines (escapeAll 2 true 0 cs)
    else '"' :: escapeAll 0 false 0 cs ++ ['"']

end TwoPhaseCommit.Toml.Text
