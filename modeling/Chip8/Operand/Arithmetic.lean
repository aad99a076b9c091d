import Chip8.Operand

/-! # Arithmetic on operands

The sum and the difference of an address and an integer, or of two addresses of one space, stay in that space.
An integer may stand on the left of such a sum but not of a difference. Two numbers give a number, a double if one
of them is a double, and two texts have a sum. -/

namespace Chip8

inductive AddOp
  | add
  | sub
deriving DecidableEq

namespace AddOp

def symbol : AddOp → String
  | add => "+"
  | sub => "-"

def apply : AddOp → Int → Int → Int
  | add, a, b => a + b
  | sub, a, b => a - b

def applyDouble : AddOp → Float → Float → Float
  | add, a, b => a + b
  | sub, a, b => a - b

end AddOp

namespace Operand

def combineInto (s : Space) (n : Int) : Except OperandError Operand :=
  (reduceInto s n).map fun a => address ⟨s, a⟩

/-- The error for two operands that an operation does not take. -/
def refuse (op : AddOp) (left right : Operand) : OperandError :=
  match op, left with
  | .add, text _ => .cannotConcatenate right.kind
  | _, _ => .unsupported op.symbol left.kind right.kind

/-- The sum or difference of two operands that are no addresses. -/
def combinePlain (op : AddOp) (left right : Operand) : Except OperandError Operand :=
  match op, left, right with
  | .add, text s, text t => .ok (text (s ++ t))
  | _, v, w =>
    match v.integer?, w.integer? with
    | some m, some n => .ok (int (op.apply m n))
    | _, _ =>
      match v.double?, w.double? with
      | some x, some y => return float (op.applyDouble (← x) (← y))
      | _, _ => .error (refuse op left right)

def combine (op : AddOp) (left right : Operand) : Except OperandError Operand :=
  match left, right with
  | address a, address b =>
    if a.space = b.space then combineInto a.space (op.apply a.value.val b.value.val)
    else .error (.cannotMix a.space b.space)
  | address a, v =>
    match v.integer? with
    | some n => combineInto a.space (op.apply a.value.val n)
    | none => .error (refuse op left right)
  | v, address b =>
    match op, v.integer? with
    | .add, some n => combineInto b.space (b.value.val + n)
    | _, _ => .error (refuse op left right)
  | _, _ => combinePlain op left right

def add (left right : Operand) : Except OperandError Operand := combine .add left right

def sub (left right : Operand) : Except OperandError Operand := combine .sub left right

end Operand
end Chip8
