/-!
# Paths

Paths are texts with `/` between their components. Two readings of them are needed: the parts that a
lookup walks through one by one, and the components that name a file, of which `.` is none. A path
that is cut short stays as it is written.
-/

namespace TwoPhaseCommit.Path

def isAbsolute (p : String) : Bool := p.startsWith "/"

/-- The parts between slashes that a lookup walks through. -/
def parts (p : String) : List String := (p.splitOn "/").filter (· ≠ "")

/-- Whether a path ends in a slash, so that it can only name a directory. -/
def hasTrailingSlash (p : String) : Bool := p.endsWith "/"

/-- The components among the parts that follow a text, each with the path up to its end. A part is a
component unless it is empty or `.`; at the start of a relative path `.` is one too. -/
def prefixesFrom (text : String) : (parts : List String) → List (String × String)
  | [] => []
  | p :: ps =>
    let upTo := text ++ p
    if p = "" ∨ p = "." ∧ text ≠ "" then prefixesFrom (upTo ++ "/") ps
    else (p, upTo) :: prefixesFrom (upTo ++ "/") ps

/-- The components of a path, each with the path up to its end. -/
def prefixes (p : String) : List (String × String) := prefixesFrom "" (p.splitOn "/")

/-- The last component, if it is a name. -/
def fileName? (p : String) : Option String :=
  ((prefixes p).getLast?.map (·.1)).filter fun c => c ≠ "." ∧ c ≠ ".."

/-- The paths to the directories that a path leads through below the root, nearest first. -/
def above (p : String) : List String := ((prefixes p).map (·.2)).reverse.tail

/-- The path without its last component; `none` for the root and the empty path. -/
def parent? (p : String) : Option String :=
  if (prefixes p).isEmpty then none
  else some ((above p).headD (if isAbsolute p then "/" else ""))

def ofComponents (cs : List String) : String := "/" ++ "/".intercalate cs

/-- The path of `name` as seen from the directory `dir`; an absolute name stands for itself. -/
def join (dir name : String) : String :=
  if isAbsolute name then name
  else if dir = "" ∨ hasTrailingSlash dir then dir ++ name
  else dir ++ "/" ++ name

/-- The path with its last component replaced, or with a component added if it ends in none. -/
def withFileName (p name : String) : String :=
  match fileName? p with
  | none => join p name
  | some _ => join ((parent? p).getD "") name

end TwoPhaseCommit.Path
