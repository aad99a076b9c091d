import Chip8.Numeral.Nearest
import Chip8.Text.Blank
import Chip8.Text.Digit

/-! # Real numerals

An optional sign, then digits with at most one point and an optional exponent, or a name of infinity or of the
double that is not a number, in any case; blanks may surround it. Single underscores may stand between digits. -/

namespace Chip8.Numeral
open Text

/-- The text without its underscores; none if one of them does not stand between two digits. -/
def unspaced (s : List Char) : Option (List Char) :=
  go none s
where
  go (before : Option Char) : List Char → Option (List Char)
    | [] => some []
    | '_' :: s =>
      if (before.bind digit?).isSome && (s.head?.bind digit?).isSome then go (some '_') s else none
    | c :: s => (go (some c) s).map (c :: ·)

def takeDigits (s : List Char) : List Nat × List Char :=
  let isDigit := fun c => (digit? c).isSome
  ((s.takeWhile isDigit).filterMap digit?, s.dropWhile isDigit)

def natOfDigits (ds : List Nat) : Nat := ds.foldl (fun n d => 10 * n + d) 0

def takeSign : List Char → Bool × List Char
  | '-' :: s => (true, s)
  | '+' :: s => (false, s)
  | s => (false, s)

/-- The exponent that fills the text; zero for the empty text. -/
def exponentPart? : List Char → Option Int
  | [] => some 0
  | c :: s =>
    let (negative, s) := takeSign s
    match takeDigits s with
    | (d :: ds, []) =>
      let n : Int := natOfDigits (d :: ds)
      if c = 'e' ∨ c = 'E' then some (if negative then -n else n) else none
    | _ => none

def fractionPart : List Char → List Nat × List Char
  | '.' :: s => takeDigits s
  | s => ([], s)

def unsignedReal? (negative : Bool) (s : List Char) : Option Float :=
  let name := String.ofList (s.map Char.toLower)
  if name = "inf" ∨ name = "infinity" then some (withSign negative (0x7FF * Nat.pow 2 52))
  else if name = "nan" then some (withSign negative (0xFFF * Nat.pow 2 51))
  else
    let (whole, s) := takeDigits s
    let (fraction, s) := fractionPart s
    let digits := whole ++ fraction
    if digits.isEmpty then none
    else (exponentPart? s).map fun e => floatOfDecimal negative (natOfDigits digits) (e - fraction.length)

def real? (s : String) : Option Float := do
  let (negative, s) := takeSign (← unspaced (trim s.toList))
  unsignedReal? negative s

end Chip8.Numeral
