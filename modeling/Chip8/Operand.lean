import Chip8.Numeral.Binary
import Chip8.Numeral.Integer
import Chip8.Numeral.Nearest
import Chip8.Space

/-! # Operands

What a caller may hand over where an address is wanted. An address is taken only in its own space; any other
operand that denotes an integer is reduced into the wanted space, a real number after rounding toward zero and a
text after reading it as a decimal numeral. -/

namespace Chip8
open Numeral

inductive Operand
  | address (a : Address)
  | int (n : Int)
  | float (x : Float)
  | bool (b : Bool)
  | text (s : String)
  | null

inductive OperandError
  | cannotBuild (target source : Space)
  | noCells
  | malformedNumeral (s : String)
  | numeralTooLong (digits : Nat)
  | tooLongToShow
  | notANumber
  | infinite
  | notConvertible (kind : String)
  | cannotMix (left right : Space)
  | unsupported (symbol left right : String)
  | cannotConcatenate (right : String)
  | tooLargeForDouble
  | unordered (symbol left right : String)

namespace Operand

/-- The name of the operand's kind. -/
def kind : Operand → String
  | address a => a.space.name
  | int _ => "int"
  | float _ => "float"
  | bool _ => "bool"
  | text _ => "str"
  | null => "NoneType"

/-- The integer that an operand denotes. -/
def toInt : Operand → Except OperandError Int
  | address a => .ok a.value.val
  | int n => .ok n
  | bool b => .ok b.toNat
  | float x =>
    match Binary.ofFloat x with
    | .nan => .error .notANumber
    | .infinite _ => .error .infinite
    | b => .ok (b.truncate?.getD 0)
  | text s =>
    match decimal s with
    | .ok n => .ok n
    | .error .malformed => .error (.malformedNumeral s)
    | .error (.tooLong digits) => .error (.numeralTooLong digits)
  | null => .error (.notConvertible null.kind)

/-- The address of a space that an integer is reduced to. -/
def reduceInto (s : Space) (n : Int) : Except OperandError (Fin s.capacity) :=
  if h : 0 < s.capacity then .ok (s.reduce n h) else .error .noCells

/-- The address of the space `s` that an operand denotes. -/
def within (s : Space) (v : Operand) : Except OperandError (Fin s.capacity) :=
  match v with
  | address a => if a.space = s then reduceInto s a.value.val else .error (.cannotBuild s a.space)
  | v => v.toInt >>= reduceInto s

def toMemoryAddress (v : Operand) : Except OperandError MemoryAddress := v.within .memory

def toRegisterIndex (v : Operand) : Except OperandError RegisterIndex := v.within .register

def toAddress (s : Space) (v : Operand) : Except OperandError Operand :=
  (v.within s).map fun a => address ⟨s, a⟩

/-- Whether a message cannot show the operand. -/
def isTooLongToShow : Operand → Bool
  | int n => Numeral.isTooLongToShow n
  | _ => false

/-- The integer of an operand that counts as one without conversion. -/
def integer? : Operand → Option Int
  | int n => some n
  | bool b => some b.toNat
  | _ => none

/-- The nearest double of a number; none if the operand is no number. -/
def double? : Operand → Option (Except OperandError Float)
  | float x => some (.ok x)
  | v => v.integer?.map fun n => (floatOfInt? n).elim (.error .tooLargeForDouble) .ok

end Operand
end Chip8
