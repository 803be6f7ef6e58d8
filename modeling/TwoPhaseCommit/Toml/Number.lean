import TwoPhaseCommit.Text.Hex

/-!
# Numbers

Integers are decimal with an optional sign, or hexadecimal, octal or binary without one, and have 64
bits. Numbers with a fraction or an exponent are only checked. Digits may be grouped by single
underscores between them.
-/

namespace TwoPhaseCommit.Toml.Number

def isDigit (c : Char) : Bool := '0' ≤ c && c ≤ '9'

/-- The digits of a number, without the underscores between them. -/
def digits? (isDigit : Char → Bool) : List Char → Option (List Char)
  | [] => none
  | [c] => if isDigit c then some [c] else none
  | c :: '_' :: cs => if isDigit c then (c :: ·) <$> digits? isDigit cs else none
  | c :: cs => if isDigit c then (c :: ·) <$> digits? isDigit cs else none

def ofDigits (base : Nat) (cs : List Char) : Nat :=
  cs.foldl (fun n c => base * n + (Hex.value? c).getD 0) 0

/-- Digits of base ten that do not start with a superfluous zero. -/
def whole? (cs : List Char) : Option (List Char) := do
  let ds ← digits? isDigit cs
  if ds.head? = some '0' ∧ ds.length > 1 then none else some ds

/-- Whether an integer has 64 bits. -/
def inRange (n : Int) : Bool := -0x8000000000000000 ≤ n && n < 0x8000000000000000

/-- Remove a sign; the flag says whether it is a minus. -/
def sign : List Char → Bool × List Char
  | '+' :: cs => (false, cs)
  | '-' :: cs => (true, cs)
  | cs => (false, cs)

/-- Read an integer, whatever its size. -/
def anyInteger? : List Char → Option Int
  | '0' :: 'x' :: cs => do return ofDigits 16 (← digits? (fun c => (Hex.value? c).isSome) cs)
  | '0' :: 'o' :: cs => do return ofDigits 8 (← digits? (fun c => '0' ≤ c && c ≤ '7') cs)
  | '0' :: 'b' :: cs => do return ofDigits 2 (← digits? (fun c => c == '0' || c == '1') cs)
  | cs => do
    let (negative, cs) := sign cs
    let n := ofDigits 10 (← whole? cs)
    return if negative then -(n : Int) else n

def integer? (cs : List Char) : Option Int := (anyInteger? cs).filter inRange

/-- Whether `m * 10 ^ e` is at least halfway from the largest number of double precision to the next
power of two, so that it has no nearest number. -/
def isTooLarge (m : Nat) (e : Int) : Bool :=
  let size : Int := (Nat.toDigits 10 m).length + e
  if m = 0 ∨ size < 308 then false
  else if size > 310 then true
  else
    let halfway := (1 <<< 1024) - (1 <<< 970)
    if e ≥ 0 then m * Nat.pow 10 e.toNat ≥ halfway else m ≥ halfway * Nat.pow 10 (-e).toNat

/-- Whether a text is a number with a fraction, an exponent, or both, or one of the two special
numbers. Positive numbers must not be too large for double precision. -/
def isFloat (cs : List Char) : Bool :=
  let (negative, cs) := sign cs
  if cs = ['i', 'n', 'f'] ∨ cs = ['n', 'a', 'n'] then true
  else
    let mantissa := cs.takeWhile fun c => c != 'e' && c != 'E'
    let exponent := cs.drop mantissa.length
    let before := mantissa.takeWhile (· != '.')
    let after := mantissa.drop before.length
    let read : Option (Nat × Int) := do
      let ds ← whole? before
      let fs ← match after with
        | [] => if exponent.isEmpty then none else some []
        | _ :: fs => digits? isDigit fs
      let e : Int ← match exponent with
        | [] => some 0
        | _ :: es => do
          let (down, es) := sign es
          let n := ofDigits 10 (← digits? isDigit es)
          some (if down then -(n : Int) else n)
      return (ofDigits 10 (ds ++ fs), e - fs.length)
    match read with
    | none => false
    | some (m, e) => negative || !isTooLarge m e

end TwoPhaseCommit.Toml.Number
