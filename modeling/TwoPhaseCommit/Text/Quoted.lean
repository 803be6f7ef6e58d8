import TwoPhaseCommit.Text.Hidden

/-!
# Quoted text

A text between double quotes in which quotes, backslashes and hidden characters are escaped.
-/

namespace TwoPhaseCommit.Quoted

/-- The digits of a code point, without leading zeros. -/
def codePoint (c : Char) : List Char := Nat.toDigits 16 c.toNat

def escape (c : Char) : List Char :=
  match c with
  | '\x00' => ['\\', '0']
  | '\t' => ['\\', 't']
  | '\n' => ['\\', 'n']
  | '\r' => ['\\', 'r']
  | '"' => ['\\', '"']
  | '\\' => ['\\', '\\']
  | c => if Text.isHidden c then '\\' :: 'u' :: '\x7b' :: codePoint c ++ ['\x7d'] else [c]

def text (s : String) : String := String.ofList ('"' :: s.toList.flatMap escape ++ ['"'])

end TwoPhaseCommit.Quoted
