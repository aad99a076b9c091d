import Chip8.Operand

/-! # Order and equality of operands

Addresses compare with addresses of their own space, numbers with numbers by exact value, texts with texts.
Operands that do not compare are unequal, and ordering them is an error. -/

namespace Chip8
open Numeral

inductive Relation
  | lt
  | le
  | gt
  | ge
deriving DecidableEq

namespace Relation

def symbol : Relation → String
  | lt => "<"
  | le => "<="
  | gt => ">"
  | ge => ">="

def holds : Relation → Ordering → Bool
  | lt, o => o.isLT
  | le, o => o.isLE
  | gt, o => o.isGT
  | ge, o => o.isGE

end Relation

/-- The hash of an address, which `mix` makes of the name of its space and its value. -/
def Address.hash (mix : String → Nat → Int) (a : Address) : Int := mix a.space.name a.value.val

namespace Operand

/-- The exact value of a number. -/
def number? : Operand → Option Binary
  | float x => some (Binary.ofFloat x)
  | v => v.integer?.map Binary.ofInt

/-- The order of two operands of one kind, and inside it none for a double that is not a number. -/
def order? (left right : Operand) : Option (Option Ordering) :=
  match left, right with
  | address a, address b => if a.space = b.space then some (some (compare a.value.val b.value.val)) else none
  | text s, text t => some (some (compare s t))
  | v, w =>
    match v.number?, w.number? with
    | some m, some n => some (m.compare? n)
    | _, _ => none

def compare (rel : Relation) (left right : Operand) : Except OperandError Bool :=
  match left.order? right with
  | some (some o) => .ok (rel.holds o)
  | some none => .ok false
  | none => .error (.unordered rel.symbol left.kind right.kind)

def equal (left right : Operand) : Bool :=
  match left, right with
  | null, null => true
  | v, w => v.order? w == some (some .eq)

/-- Whether an operand lies outside `[0, capacity)`. -/
def isOverflow (s : Space) (v : Operand) : Except OperandError Bool := do
  if ← compare .le (int 0) v then return !(← compare .lt v (int s.capacity))
  else return true

end Operand
end Chip8
