import Chip8.Overlay
import Chip8.Space

/-! # Memory

4096 bytes. A block that would run past the last byte is cut there and never continues at the first. The last 256
bytes are the display window. -/

namespace Chip8

structure Memory where
  cells : Vector UInt8 4096
deriving DecidableEq

namespace Memory

def size : Nat := 4096

/-- Where the display window begins. -/
def displayBase : MemoryAddress := 0xF00

def displaySize : Nat := 0x100

def blank : Memory := ⟨Vector.replicate 4096 0⟩

def read (m : Memory) (a : MemoryAddress) : UInt8 := m.cells[a]

/-- Stores the low eight bits of `n`. -/
def write (m : Memory) (a : MemoryAddress) (n : Int) : Memory := ⟨m.cells.set a (UInt8.ofInt n)⟩

/-- The two bytes from `a` on, the high one first; the byte after the last address is the first one. -/
def readWord (m : Memory) (a : MemoryAddress) : Nat := (m.read a).toNat * 256 + (m.read (a + 1)).toNat

/-- How many of `length` bytes from `a` on lie in memory. -/
def room (a : MemoryAddress) (length : Int) : Nat := min length.toNat (4096 - a)

theorem add_room_le (a : MemoryAddress) (length : Int) : a + room a length ≤ 4096 := by
  unfold room; omega

def readBlock (m : Memory) (a : MemoryAddress) (length : Int) : List UInt8 :=
  List.ofFn fun j : Fin (room a length) => m.cells.get ⟨a.val + j.val, by have := add_room_le a length; omega⟩

def writeBlock (m : Memory) (a : MemoryAddress) (data : List UInt8) : Memory := ⟨overlay m.cells a data⟩

def displayBlock (m : Memory) : List UInt8 := m.readBlock displayBase displaySize

def writeDisplayBlock (m : Memory) (data : List UInt8) : Memory :=
  m.writeBlock displayBase (data.take displaySize)

theorem length_readBlock (m : Memory) (a : MemoryAddress) (length : Int) :
    (m.readBlock a length).length = room a length := by
  simp [readBlock]

theorem getElem_readBlock (m : Memory) (a : MemoryAddress) (length : Int) (j : Nat)
    (hj : j < (m.readBlock a length).length) (h : a.val + j < 4096) :
    (m.readBlock a length)[j] = m.cells[a.val + j] := by
  simp [readBlock, Vector.get]

theorem getElem_writeBlock (m : Memory) (a : MemoryAddress) (data : List UInt8) (j : Nat) (hj : j < 4096) :
    (m.writeBlock a data).cells[j] =
      if h : a ≤ j ∧ j - a < data.length then data[j - a] else m.cells[j] :=
  getElem_overlay m.cells a data j hj

end Memory
end Chip8
