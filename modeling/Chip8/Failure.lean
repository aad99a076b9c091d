import Chip8.Fault
import Chip8.Rate
import Chip8.Storage

/-! # Failures

What can keep a session from starting, or end it. -/

namespace Chip8

inductive RomError
  | unreadable (path : String) (cause : FileError)
  | empty (path : String)
  | tooLarge (path : String) (size limit : Nat)

def RomError.message : RomError → String
  | unreadable path cause =>
    "cannot read ROM '" ++ path ++ "': " ++ cause.text ++ ": " ++ Text.quoted (Path.ofString path).text
  | empty path => "ROM '" ++ path ++ "' is empty"
  | tooLarge path size limit =>
    "ROM '" ++ path ++ "' is " ++ toString size ++ " bytes, at most " ++ toString limit ++ " fit in memory"

/-- What an option that was given without a value is needed for. -/
inductive MissingValue
  | logLevel
  | maxCycles
  | ticking
  | batch
  | rate
deriving DecidableEq

def MissingValue.message : MissingValue → String
  | logLevel => "attribute name must be string, not 'list'"
  | maxCycles => "can only concatenate list (not \"int\") to list"
  | ticking => "'>' not supported between instances of 'list' and 'int'"
  | batch => "'list' object cannot be interpreted as an integer"
  | rate => "'<=' not supported between instances of 'list' and 'int'"

/-- Why a console does not draw a screen: the kind of error that it answers with, and the message. -/
structure DrawError where
  kind : String
  message : String
deriving DecidableEq

inductive Failure
  | rom (e : RomError)
  | fault (f : Fault)
  | screen (e : DrawError)
  | missing (v : MissingValue)
  | nulInPath
  | rateNotPositive (rate : Rate)
  | rateTooLarge
  | interrupted

namespace Failure

/-- Whether the command line reports the failure instead of passing it on. -/
def isReported : Failure → Bool
  | rom _ => true
  | fault f => f.isStackFault
  | _ => false

def message : Failure → String
  | rom e => e.message
  | fault f => f.message
  | screen e => e.message
  | missing v => v.message
  | nulInPath => "embedded null byte"
  | rateNotPositive rate => "tick rate must be positive, got " ++ rate.shown
  | rateTooLarge => "int too large to convert to float"
  | interrupted => ""

end Failure

/-- The time between two ticks of a rate. -/
def Rate.interval (r : Rate) : Except Failure Float :=
  if r.notPositive then .error (.rateNotPositive r)
  else
    match r.interval? with
    | some x => .ok x
    | none => .error .rateTooLarge

end Chip8
