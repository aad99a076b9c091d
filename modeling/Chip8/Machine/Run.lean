import Chip8.Machine.Execute

/-! # Steps and runs

A step fetches, decodes and executes one word. A word that is no instruction is reported, counted and skipped. A
step that fails leaves the machine as it was. -/

namespace Chip8.Machine

/-- Reports and skips a word that is no instruction. -/
def skipUnrecognized (word : Nat) (m : Machine) : Machine :=
  let u : Unrecognized := ⟨m.pc.val, word⟩
  { m with
    pc := m.pc + 2
    unrecognized := m.unrecognized + 1
    lastUnrecognized := some u
    notices := m.notices.push (.unrecognized u) }

/-- Counts a completed step. -/
def countStep (op : Option Op) (m : Machine) : Machine :=
  { m with stats := m.stats.bump op, cycles := m.cycles + 1 }

/-- One step; the answer is the executed instruction, or none for a word that is no instruction. -/
def step : Action (Option Instruction) := do
  let m ← get
  let word := m.memory.readWord m.pc
  let fetched := Instruction.decode word
  match fetched with
  | none => modify (skipUnrecognized word)
  | some i =>
    let next ← execute i
    modify fun m => { m with pc := next }
  modify (countStep (fetched.map (·.op)))
  return fetched

/-- Makes `left` steps after `made`, with a tick whenever `cyclesPerTick` divides the steps made. -/
def runFrom (cyclesPerTick : Int) (made : Nat) : Nat → Action Unit
  | 0 => pure ()
  | left + 1 => do
    let _ ← step
    if 0 < cyclesPerTick ∧ ((made + 1 : Nat) : Int) % cyclesPerTick = 0 then modify fun m => m.tick.2
    runFrom cyclesPerTick (made + 1) left

/-- Makes `maxCycles` steps, with a tick after every `cyclesPerTick` of them if that is positive. -/
def run (maxCycles cyclesPerTick : Int) : Action Unit := runFrom cyclesPerTick 0 maxCycles.toNat

end Chip8.Machine
