import Chip8.Text.Blank
import Chip8.Text.Digit

/-! # Integer numerals

A numeral is an optional sign and digits of one base, with blanks around it. Single underscores may stand
between digits. `decimal` reads base ten only; `anyBase` also takes the prefixes `0x`, `0o` and `0b`, allows an
underscore after them, and refuses a decimal number that begins with zero and is not zero. Decimal numerals of
more than `maxDigits` digits are refused in both, and a number that needs more cannot be shown. -/

namespace Chip8.Numeral
open Text

inductive IntegerError
  | malformed
  | tooLong (digits : Nat)
deriving DecidableEq

def maxDigits : Nat := 4300

/-- Whether the number has more decimal digits than may be shown. -/
def isTooLongToShow (n : Int) : Bool := Nat.pow 10 maxDigits ≤ n.natAbs

/-- What is said of such a number in the place of its digits. -/
def tooLongToShow : String :=
  "Exceeds the limit (4300 digits) for integer string conversion; use sys.set_int_max_str_digits() to increase the limit"

def isDigitOr (base : Nat) (c : Char) : Bool := c == '_' || (digitIn? base c).isSome

/-- Starts and ends with a digit, and no two underscores meet. -/
def spaced : List Char → Bool
  | [] => false
  | [c] => c != '_'
  | c :: d :: s => c != '_' && (if d = '_' then spaced s else spaced (d :: s))

/-- The number that the digits among the characters denote. -/
def magnitude (base : Nat) (s : List Char) : Nat :=
  (s.filterMap (digitIn? base)).foldl (fun n d => base * n + d) 0

/-- The value of unsigned digits that fill the whole text. -/
def unsigned (base : Nat) (s : List Char) : Except IntegerError Nat :=
  let run := s.takeWhile (isDigitOr base)
  let digits := run.countP (· != '_')
  if !spaced run then .error .malformed
  else if base = 10 ∧ maxDigits < digits then .error (.tooLong digits)
  else if run.length < s.length then .error .malformed
  else .ok (magnitude base run)

/-- A sign before what `read` takes. -/
def signed (read : List Char → Except IntegerError Nat) : List Char → Except IntegerError Int
  | '-' :: s => (read s).map fun n => -(n : Int)
  | '+' :: s => (read s).map Int.ofNat
  | s => (read s).map Int.ofNat

/-- The base that the letter after a zero names. -/
def baseMark? : Char → Option Nat
  | 'x' | 'X' => some 16
  | 'o' | 'O' => some 8
  | 'b' | 'B' => some 2
  | _ => none

/-- Digits in base ten of which only zero may begin with a zero. -/
def plain (s : List Char) : Except IntegerError Nat :=
  match s with
  | [] => .error .malformed
  | c :: _ => do
    let n ← unsigned 10 s
    if digit? c = some 0 ∧ n ≠ 0 then throw .malformed
    return n

/-- Digits after an optional base mark. -/
def marked : List Char → Except IntegerError Nat
  | z :: c :: s =>
    match if digit? z = some 0 then baseMark? c else none with
    | some base => unsigned base (if s.head? = some '_' then s.tail else s)
    | none => plain (z :: c :: s)
  | s => plain s

def decimal (s : String) : Except IntegerError Int := signed (unsigned 10) (trim s.toList)

def anyBase (s : String) : Except IntegerError Int := signed marked (trim s.toList)

end Chip8.Numeral
