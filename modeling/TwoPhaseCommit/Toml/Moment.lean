import TwoPhaseCommit.Toml.Number

/-!
# Dates and times

A date, a time of day, or both with an optional offset from universal time. They are only checked.
-/

namespace TwoPhaseCommit.Toml.Moment

/-- The number that a text of nothing but digits spells. -/
def number? (cs : List Char) : Option Nat :=
  if cs.all Number.isDigit then some (Number.ofDigits 10 cs) else none

def daysIn (year month : Nat) : Nat :=
  if month = 2 then
    if year % 4 = 0 ∧ (year % 100 ≠ 0 ∨ year % 400 = 0) then 29 else 28
  else if month ∈ [4, 6, 9, 11] then 30 else 31

/-- Whether a text is a date such as `1979-05-27`. -/
def isDate : List Char → Bool
  | [y1, y2, y3, y4, '-', m1, m2, '-', d1, d2] =>
    match number? [y1, y2, y3, y4], number? [m1, m2], number? [d1, d2] with
    | some y, some m, some d => 1 ≤ m && m ≤ 12 && 1 ≤ d && d ≤ daysIn y m
    | _, _, _ => false
  | _ => false

/-- Whether two digits spell a number up to `limit`. -/
def isPair (limit : Nat) (a b : Char) : Bool := (number? [a, b]).any (· ≤ limit)

/-- Whether a text is an offset such as `Z` or `-07:00`. -/
def isOffset : List Char → Bool
  | ['Z'] | ['z'] => true
  | [s, h1, h2, ':', m1, m2] => (s == '+' || s == '-') && isPair 23 h1 h2 && isPair 59 m1 m2
  | _ => false

/-- What follows a time of day such as `07:32:00.999` at the front of a text. -/
def afterTime? : List Char → Option (List Char)
  | h1 :: h2 :: ':' :: m1 :: m2 :: ':' :: s1 :: s2 :: cs =>
    if isPair 23 h1 h2 && isPair 59 m1 m2 && isPair 60 s1 s2 then
      match cs with
      | '.' :: d :: cs => if Number.isDigit d then some (cs.dropWhile Number.isDigit) else none
      | '.' :: [] => none
      | cs => some cs
    else none
  | _ => none

def isTime (cs : List Char) : Bool := afterTime? cs == some []

/-- Whether a text is a time of day with an optional offset. -/
def isZonedTime (cs : List Char) : Bool :=
  match afterTime? cs with
  | none => false
  | some rest => rest.isEmpty || isOffset rest

/-- Whether a text is a date and a time with a `T` between them. -/
def isDateTime (cs : List Char) : Bool :=
  isDate (cs.take 10) && match cs.drop 10 with
    | c :: cs => (c == 'T' || c == 't') && isZonedTime cs
    | [] => false

end TwoPhaseCommit.Toml.Moment
