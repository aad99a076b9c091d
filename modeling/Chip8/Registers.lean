import Chip8.Overlay
import Chip8.Space

/-! # Registers

Sixteen byte registers, of which the last holds flags, and the index register. -/

namespace Chip8

structure Registers where
  v : Vector UInt8 16
  index : MemoryAddress
deriving DecidableEq

namespace Registers

/-- The flag register. -/
def flag : RegisterIndex := 0xF

def blank : Registers := ⟨Vector.replicate 16 0, 0⟩

def read (r : Registers) (x : RegisterIndex) : UInt8 := r.v[x]

def put (r : Registers) (x : RegisterIndex) (b : UInt8) : Registers := { r with v := r.v.set x b }

/-- Stores the low eight bits of `n`. -/
def write (r : Registers) (x : RegisterIndex) (n : Int) : Registers := r.put x (UInt8.ofInt n)

/-- Sets the flag register to one or zero. -/
def setFlag (r : Registers) (b : Bool) : Registers := r.put flag (if b then 1 else 0)

def setIndex (r : Registers) (a : MemoryAddress) : Registers := { r with index := a }

/-- Stores bytes from the first register on. -/
def fill (r : Registers) (bytes : List UInt8) : Registers := { r with v := overlay r.v 0 bytes }

theorem read_put (r : Registers) (x y : RegisterIndex) (b : UInt8) :
    (r.put x b).read y = if x = y then b else r.read y := by
  simp only [read, put, Fin.getElem_fin, Vector.getElem_set, Fin.ext_iff]

end Registers
end Chip8
