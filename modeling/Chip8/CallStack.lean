import Chip8.Fault

/-! # Call stack

Sixteen slots for return addresses, of which the first `depth` are occupied. A push is refused on a full stack
before its operand is taken for an address; the refusal shows the operand, if it can be shown. A slot that is given up is
cleared. -/

namespace Chip8

structure CallStack where
  slots : Vector MemoryAddress 16
  depth : Nat
  depth_le : depth ≤ 16
deriving DecidableEq

namespace CallStack

def capacity : Nat := 16

def empty : CallStack := ⟨Vector.replicate 16 0, 0, by decide⟩

/-- The return addresses, the oldest first. -/
def toList (s : CallStack) : List MemoryAddress := s.slots.toList.take s.depth

def push (v : Operand) : EStateM Fault CallStack Unit := fun s =>
  if h : s.depth < 16 then
    match v.toMemoryAddress with
    | .ok a => .ok () ⟨s.slots.set s.depth a, s.depth + 1, h⟩
    | .error e => .error (.operand e) s
  else .error (.ofFullStack v) s

def pop : EStateM Fault CallStack MemoryAddress := fun s =>
  have := s.depth_le
  if h : 0 < s.depth then
    .ok s.slots[s.depth - 1] ⟨s.slots.set (s.depth - 1) 0, s.depth - 1, by omega⟩
  else .error .stackEmpty s

/-- The newest return address. -/
def peek? (s : CallStack) : Option MemoryAddress :=
  have := s.depth_le
  if h : 0 < s.depth then some s.slots[s.depth - 1] else none

theorem push_of_lt {s : CallStack} {v : Operand} {a : MemoryAddress} (h : s.depth < 16)
    (hv : v.toMemoryAddress = .ok a) : push v s = .ok () ⟨s.slots.set s.depth a, s.depth + 1, h⟩ := by
  simp only [push, h, hv, ↓reduceDIte]

theorem push_of_full {s : CallStack} (v : Operand) (h : s.depth = 16) : push v s = .error (.ofFullStack v) s := by
  simp only [push, h, Nat.lt_irrefl, ↓reduceDIte]

theorem pop_of_empty {s : CallStack} (h : s.depth = 0) : pop s = .error .stackEmpty s := by
  simp only [pop, h, Nat.lt_irrefl, ↓reduceDIte]

theorem length_toList (s : CallStack) : s.toList.length = s.depth := by
  have := s.depth_le
  simp only [toList, List.length_take, Vector.length_toList]; omega

theorem toList_set (s : CallStack) (a : MemoryAddress) (h : s.depth < 16) :
    (⟨s.slots.set s.depth a, s.depth + 1, h⟩ : CallStack).toList = s.toList ++ [a] := by
  simp only [toList, Vector.toList_set]
  rw [List.take_succ_eq_append_getElem (by rw [List.length_set, Vector.length_toList]; exact h)]
  rw [List.take_set_of_le (Nat.le_refl _), List.getElem_set_self]

end CallStack
end Chip8
