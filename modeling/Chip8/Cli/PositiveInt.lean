import Chip8.Numeral.Integer

/-! # Positive integers on the command line

A numeral of any base whose value is above zero. -/

namespace Chip8.Cli
open Numeral

inductive PositiveIntError
  | malformed (text : String)
  | notPositive (n : Int)
  /-- A value below one whose decimal digits are too many to be shown. -/
  | tooLongToShow
deriving DecidableEq

def PositiveIntError.message : PositiveIntError → String
  | malformed text => "invalid integer '" ++ text ++ "'"
  | notPositive n => "expected a positive integer, got " ++ toString n
  | tooLongToShow => Numeral.tooLongToShow

def positiveInt (text : String) : Except PositiveIntError Int :=
  match anyBase text with
  | .error _ => .error (.malformed text)
  | .ok n =>
    if 0 < n then .ok n
    else if isTooLongToShow n then .error .tooLongToShow
    else .error (.notPositive n)

end Chip8.Cli
