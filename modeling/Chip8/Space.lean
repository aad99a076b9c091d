import Chip8.Text.Padded

/-! # Address spaces

An address is a number below the capacity of its space. Every integer has an address in a space that has cells:
its remainder modulo the capacity. -/

namespace Chip8

inductive Space
  | empty
  | memory
  | register
  | stack
deriving DecidableEq, Repr

namespace Space

@[reducible] def capacity : Space → Nat
  | empty => 0
  | memory => 4096
  | register => 16
  | stack => 16

def name : Space → String
  | empty => "BoundedAddress"
  | memory => "MemoryAddress"
  | register => "RegisterIndex"
  | stack => "StackIndex"

/-- The remainder of `n` modulo the capacity. -/
def reduce (s : Space) (n : Int) (h : 0 < s.capacity) : Fin s.capacity :=
  ⟨(n % s.capacity).toNat, by
    have := Int.emod_lt_of_pos n (show (0 : Int) < s.capacity by omega)
    have := Int.emod_nonneg n (show (s.capacity : Int) ≠ 0 by omega)
    omega⟩

theorem val_reduce (s : Space) (n : Int) (h : 0 < s.capacity) : ((s.reduce n h).val : Int) = n % s.capacity := by
  have := Int.emod_nonneg n (show (s.capacity : Int) ≠ 0 by omega)
  simp only [reduce]; omega

theorem reduce_val (s : Space) (a : Fin s.capacity) (h : 0 < s.capacity) : s.reduce a.val h = a := by
  have := val_reduce s a.val h
  rw [Int.emod_eq_of_lt (by omega) (by omega)] at this
  exact Fin.ext (by omega)

end Space

abbrev MemoryAddress := Fin 4096

abbrev RegisterIndex := Fin 16

-- Numerals below stand for addresses; they ask for this zero, whatever others are in scope.
instance MemoryAddress.neZero : @NeZero Nat Zero.ofOfNat0 4096 := ⟨by decide⟩

instance RegisterIndex.neZero : @NeZero Nat Zero.ofOfNat0 16 := ⟨by decide⟩

def MemoryAddress.ofInt (n : Int) : MemoryAddress := Space.memory.reduce n (by decide)

def RegisterIndex.ofInt (n : Int) : RegisterIndex := Space.register.reduce n (by decide)

/-- An address that knows its space. -/
structure Address where
  space : Space
  value : Fin space.capacity
deriving DecidableEq

/-- Registers are written `V0` to `VF`, other addresses by the name of their space. -/
def Address.text (a : Address) : String :=
  match a.space with
  | .register => "V" ++ Text.hex 1 a.value.val
  | s => s.name ++ "(0x" ++ Text.hex 3 a.value.val ++ ")"

def MemoryAddress.address (a : MemoryAddress) : Address := ⟨.memory, a⟩

end Chip8
