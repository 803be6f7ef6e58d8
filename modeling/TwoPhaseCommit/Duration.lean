/-!
# Durations

A length of time in nanoseconds. It is shown in the largest unit of which it holds at least one,
with as many decimals as it needs.
-/

namespace TwoPhaseCommit

structure Duration where
  nanos : Nat
deriving DecidableEq, Inhabited

namespace Duration

def zero : Duration := ⟨0⟩
def ofNanos (n : Nat) : Duration := ⟨n⟩
def ofMillis (n : Nat) : Duration := ⟨n * 1000000⟩
def ofSeconds (n : Nat) : Duration := ⟨n * 1000000000⟩

def isZero (d : Duration) : Bool := d.nanos == 0

def seconds (d : Duration) : Nat := d.nanos / 1000000000
def subsecondNanos (d : Duration) : Nat := d.nanos % 1000000000

/-- The decimals of `n / 10 ^ places`, without the zeros at their end. -/
def decimals (places n : Nat) : String :=
  let digits := (Nat.toDigits 10 (Nat.pow 10 places + n % Nat.pow 10 places)).tail
  let kept := (digits.reverse.dropWhile (· == '0')).reverse
  if kept.isEmpty then "" else "." ++ String.ofList kept

/-- The text of a duration, such as `1.5ms`. -/
def text (d : Duration) : String :=
  let n := d.nanos
  if n ≥ 1000000000 then toString (n / 1000000000) ++ decimals 9 n ++ "s"
  else if n ≥ 1000000 then toString (n / 1000000) ++ decimals 6 n ++ "ms"
  else if n ≥ 1000 then toString (n / 1000) ++ decimals 3 n ++ "µs"
  else toString n ++ "ns"

instance : ToString Duration := ⟨text⟩

end Duration

end TwoPhaseCommit
