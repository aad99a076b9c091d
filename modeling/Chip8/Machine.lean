import Chip8.CallStack
import Chip8.Font
import Chip8.Instruction
import Chip8.Keypad
import Chip8.Log
import Chip8.RandomSource
import Chip8.Registers
import Chip8.Screen
import Chip8.Tally
import Chip8.Timers

/-! # The machine

All state of the machine in one record, and what a host does to it from outside: reset, load, tick. An action
keeps the state that it had reached when it fails, so that a failure may be asked what it left behind. -/

namespace Chip8

/-- A fetched word that no format accepts, and where it was fetched. -/
structure Unrecognized where
  address : Int
  word : Int
deriving DecidableEq

def Unrecognized.text (u : Unrecognized) : String :=
  "unrecognized opcode 0x" ++ Text.hex 4 u.word ++ " at 0x" ++ Text.hex 3 u.address

/-- What the machine reports while it works. -/
inductive Notice
  | unrecognized (u : Unrecognized)
  | truncated (written total : Nat)
deriving DecidableEq

def Notice.line : Notice → LogLine
  | unrecognized u => ⟨.warning, .processor, u.text⟩
  | truncated written total =>
    ⟨.warning, .processor, "ROM truncated: " ++ toString written ++ " of " ++ toString total ++
      " bytes fit below the display window"⟩

structure Machine where
  memory : Memory
  registers : Registers
  stack : CallStack
  screen : Screen
  timers : Timers
  keypad : Keypad
  random : RandomSource
  pc : MemoryAddress
  cycles : Nat
  waiting : Bool
  stats : Tally
  unrecognized : Nat
  lastUnrecognized : Option Unrecognized
  notices : Array Notice

/-- An action on the machine, which may fail. -/
abbrev Action (α : Type) := EStateM Fault Machine α

namespace Machine
variable {α : Type}

/-- Where programs begin. -/
def programStart : MemoryAddress := 0x200

/-- How many bytes lie between the start of programs and the display window. -/
def programSpace : Nat := 0xD00

/-- A machine whose memory, registers and counters are all zero. -/
def blank (keypad : Keypad) (random : RandomSource) : Machine where
  memory := .blank
  registers := .blank
  stack := .empty
  screen := .blank
  timers := .blank
  keypad := keypad
  random := random
  pc := programStart
  cycles := 0
  waiting := false
  stats := .empty
  unrecognized := 0
  lastUnrecognized := none
  notices := #[]

/-- Clears all but the keypad, the random source and the notices, and puts the font into memory. -/
def reset (m : Machine) : Machine :=
  { m with
    memory := Memory.blank.writeBlock Font.base Font.sprites
    registers := .blank
    stack := .empty
    screen := { m.screen.clear with dirty := false }
    timers := .blank
    pc := programStart
    cycles := 0
    waiting := false
    stats := .empty
    unrecognized := 0
    lastUnrecognized := none }

/-- A machine that is ready to take a program. -/
def new (keypad : Keypad) (random : RandomSource) : Machine := (blank keypad random).reset

def notify (m : Machine) (n : Notice) : Machine := { m with notices := m.notices.push n }

/-- Copies a program into memory, without the bytes that would reach the display window. -/
def load (m : Machine) (rom : List UInt8) : Nat × Machine :=
  let kept := rom.take programSpace
  let loaded := { m with memory := m.memory.writeBlock programStart kept }
  (kept.length, if kept.length < rom.length then loaded.notify (.truncated kept.length rom.length) else loaded)

/-- A load writes to memory, and adds a notice at most. -/
theorem exists_load_eq (m : Machine) (rom : List UInt8) : ∃ notices, (m.load rom).2 =
    { m with memory := m.memory.writeBlock programStart (rom.take programSpace), notices := notices } := by
  simp only [load]
  split
  · exact ⟨_, rfl⟩
  · exact ⟨_, rfl⟩

/-- Copies the screen into the display window of the memory. -/
def syncDisplay (m : Machine) : Machine :=
  let packed := m.screen.packed
  { m with memory := m.memory.writeDisplayBlock packed }

/-- Counts the timers down; true if the screen was written since the last tick. -/
def tick (m : Machine) : Bool × Machine :=
  let (dirty, screen) := m.screen.consumeDirty
  (dirty, { m with timers := m.timers.tick, screen := screen })

/-- Runs an action of the call stack. -/
def onStack (act : EStateM Fault CallStack α) : Action α := fun m =>
  match act m.stack with
  | .ok a s => .ok a { m with stack := s }
  | .error e s => .error e { m with stack := s }

/-- Runs an action of the registers. -/
def onRegisters (act : EStateM Fault Registers α) : Action α := fun m =>
  match act m.registers with
  | .ok a r => .ok a { m with registers := r }
  | .error e r => .error e { m with registers := r }

/-- Runs an action of the screen. -/
def onScreen (act : EStateM Fault Screen α) : Action α := fun m =>
  match act m.screen with
  | .ok a s => .ok a { m with screen := s }
  | .error e s => .error e { m with screen := s }

end Machine
end Chip8
