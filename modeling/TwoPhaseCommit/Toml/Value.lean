/-!
# Values and tables

A document is a tree of tables. It grows statement by statement: a pair adds a value below the table
of the latest header, and a header opens a table or adds one to an array of tables. What a table may
still take depends on how it came to be, its `Origin`.
-/

namespace TwoPhaseCommit.Toml

/-- How a table came to be. -/
inductive Origin
  /-- By a header of its own, or as the whole document. -/
  | header
  /-- As a parent that a longer header names. -/
  | parent
  /-- As a parent that a dotted key names. -/
  | dotted
  /-- Between braces. -/
  | inline
deriving DecidableEq

/-- A value. Of numbers with a fraction and of times nothing is kept: they are only told apart. -/
inductive Value
  | string (text : String)
  | integer (n : Int)
  | float
  | boolean (b : Bool)
  | time
  | array (items : List Value)
  | table (origin : Origin) (entries : List (String × Value))
  /-- An array made by headers: its latest table, and those before it. -/
  | tables (latest : List (String × Value)) (earlier : List (List (String × Value)))

/-- The entries of a table, oldest first. -/
abbrev Entries := List (String × Value)

namespace Entries

def has (es : Entries) (key : String) : Bool := es.any (·.1 == key)

/-- Put a value in the place of the one under `key`. -/
def set (key : String) (v : Value) (es : Entries) : Entries :=
  es.map fun e => if e.1 = key then (key, v) else e

/-- Change the table that `path` leads to by `f`, which is told how that table came to be. Parents
that are missing are made. A dotted path does not go into tables that have a header of their own,
and no path goes into a table between braces; an array of tables stands for its latest one. -/
def update (dotted : Bool) (f : Origin → Entries → Option Entries) :
    (path : List String) → Origin → Entries → Option Entries
  | [], origin, es => f origin es
  | k :: ks, _, es =>
    match es.lookup k with
    | none => do
      let origin := if dotted then .dotted else .parent
      return es ++ [(k, .table origin (← update dotted f ks origin []))]
    | some (.table origin sub) =>
      if origin = .inline ∨ (dotted ∧ origin = .header) then none
      else do return set k (.table origin (← update dotted f ks origin sub)) es
    | some (.tables latest earlier) => do
      return set k (.tables (← update dotted f ks .header latest) earlier) es
    | some _ => none

/-- Add a value under a new key of the table that a dotted path leads to. That table must have been
made by dotted keys, unless the path is empty, in which case it must not. -/
def insert (path : List String) (key : String) (v : Value) : Origin → Entries → Option Entries :=
  let add (origin : Origin) (es : Entries) : Option Entries :=
    if decide (origin = .dotted) = path.isEmpty ∨ es.has key then none else some (es ++ [(key, v)])
  update true add path

/-- The table that holds the given pairs, written between braces. -/
def ofPairs? (pairs : List (List String × String × Value)) : Option Entries :=
  pairs.foldlM (fun es p => insert p.1 p.2.1 p.2.2 .inline es) []

end Entries

/-- A line of a document. -/
inductive Statement
  /-- A value under a dotted key, given by the path of the key and its last part. -/
  | pair (path : List String) (key : String) (value : Value)
  | table (path : List String) (key : String)
  | element (path : List String) (key : String)

/-- A document so far: all its entries, and the table that pairs are added to. -/
structure Document where
  entries : Entries := []
  current : List String := []

namespace Document

/-- Open the table under `key`: a new one, or one that so far was only a parent. -/
def openTable (key : String) (_ : Origin) (es : Entries) : Option Entries :=
  match es.lookup key with
  | none => some (es ++ [(key, .table .header [])])
  | some (.table .parent sub) => some (es.set key (.table .header sub))
  | some _ => none

/-- Add an empty table to the array under `key`. -/
def openElement (key : String) (_ : Origin) (es : Entries) : Option Entries :=
  match es.lookup key with
  | none => some (es ++ [(key, .tables [] [])])
  | some (.tables latest earlier) => some (es.set key (.tables [] (latest :: earlier)))
  | some _ => none

def add (d : Document) : Statement → Option Document
  | .pair path key v => do
    let entries ← Entries.update false (Entries.insert path key v) d.current .header d.entries
    return { d with entries }
  | .table path key => do
    return ⟨← Entries.update false (openTable key) path .header d.entries, path ++ [key]⟩
  | .element path key => do
    return ⟨← Entries.update false (openElement key) path .header d.entries, path ++ [key]⟩

def build? (ss : List Statement) : Option Entries := entries <$> ss.foldlM add {}

end Document

end TwoPhaseCommit.Toml
