/-! # Random source

The numbers that a program draws, by position, with a record of the bounds that each draw asked for. -/

namespace Chip8

/-- A seed: none asked for, a number, or one asked for without a number. -/
inductive Seed
  | unset
  | number (n : Int)
  | empty
deriving DecidableEq

structure RandomSource where
  value : Nat → Int
  bounds : Array (Nat × Nat)

namespace RandomSource

/-- The values of a script in order, over and over; zeros if the script is empty. -/
def ofScript (script : Array Int) : RandomSource :=
  ⟨fun n => if h : n % script.size < script.size then script[n % script.size] else 0, #[]⟩

/-- The number of values drawn. -/
def position (r : RandomSource) : Nat := r.bounds.size

def draw (r : RandomSource) (low high : Nat) : Int × RandomSource :=
  (r.value r.position, { r with bounds := r.bounds.push (low, high) })

end RandomSource
end Chip8
