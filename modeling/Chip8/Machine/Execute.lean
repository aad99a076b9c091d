import Chip8.Machine

/-! # Executing an instruction

`execute` carries out one instruction and answers with the address of the next. Flags are computed from the
operands before the result is stored and are stored after it, so the flag register ends up holding the flag even
where it is the target too. -/

namespace Chip8

/-- Loads, arithmetic, logic and shifts. -/
def Registers.alu (i : Instruction) : EStateM Fault Registers Unit := fun r =>
  let vx := r.read i.x
  let vy := r.read i.y
  match i.op with
  | .ild => .ok () (r.write i.x i.byte)
  | .iadd => .ok () (r.write i.x (vx.toNat + i.byte))
  | .rld => .ok () (r.put i.x vy)
  | .ror => .ok () (r.put i.x (vx ||| vy))
  | .rand => .ok () (r.put i.x (vx &&& vy))
  | .rxor => .ok () (r.put i.x (vx ^^^ vy))
  | .radd => .ok () ((r.put i.x (vx + vy)).setFlag (0xFF < vx.toNat + vy.toNat))
  | .rsub => .ok () ((r.put i.x (vx - vy)).setFlag (vy ≤ vx))
  | .rsubn => .ok () ((r.put i.x (vy - vx)).setFlag (vx ≤ vy))
  | .shr => .ok () ((r.put i.x (vx >>> 1)).setFlag (vx.toNat.testBit 0))
  | .shl => .ok () ((r.put i.x (vx <<< 1)).setFlag (vx.toNat.testBit 7))
  | op => .error (.notAlu op) r

namespace Machine

/-- Whether the condition of a skip holds. -/
def skips (i : Instruction) : Action Bool := fun m =>
  let vx := m.registers.read i.x
  let vy := m.registers.read i.y
  match i.op with
  | .ise => .ok (vx.toNat == i.byte) m
  | .isne => .ok (vx.toNat != i.byte) m
  | .rse => .ok (vx == vy) m
  | .rsne => .ok (vx != vy) m
  | .skp => .ok (m.keypad.isPressed vx.toNat) m
  | .sknp => .ok (!m.keypad.isPressed vx.toNat) m
  | op => .error (.notSkip op) m

def setIndex (m : Machine) (a : MemoryAddress) : Machine := { m with registers := m.registers.setIndex a }

/-- Stores bytes in memory from the index register on. -/
def storeBlock (m : Machine) (data : List UInt8) : Machine :=
  { m with memory := m.memory.writeBlock m.registers.index data }

/-- Loads the first `count` registers from memory from the index register on. -/
def loadRegisters (m : Machine) (count : Nat) : Machine :=
  { m with registers := m.registers.fill (m.memory.readBlock m.registers.index count) }

/-- The decimal digits of a byte, hundreds first. -/
def decimalDigits (b : UInt8) : List UInt8 := [b / 100, b / 10 % 10, b % 10]

/-- Operations on the index register and the memory it points at. -/
def indexed (i : Instruction) : Action Unit := fun m =>
  let vx := m.registers.read i.x
  match i.op with
  | .ldi => .ok () (m.setIndex i.addr)
  | .addi => .ok () (m.setIndex (.ofInt (m.registers.index.val + vx.toNat : Nat)))
  | .ldfi => .ok () (m.setIndex (.ofInt (Font.address vx.toNat)))
  | .ldbcd => .ok () (m.storeBlock (decimalDigits vx))
  | .dump => .ok () (m.storeBlock (m.registers.v.toList.take (i.x + 1)))
  | .load => .ok () (m.loadRegisters (i.x + 1))
  | op => .error (.notIndex op) m

/-- Loads and stores of the timers. -/
def timed (i : Instruction) : Action Unit := fun m =>
  let vx := m.registers.read i.x
  match i.op with
  | .lddt => .ok () { m with registers := m.registers.put i.x m.timers.delay }
  | .setdt => .ok () { m with timers := m.timers.setDelay vx.toNat }
  | .setst => .ok () { m with timers := m.timers.setSound vx.toNat }
  | op => .error (.notTimer op) m

/-- Draws the sprite at the index register; the flag tells whether a lit pixel was turned off. -/
def drawSprite (i : Instruction) : Action Unit := do
  let m ← get
  let r := m.registers
  let sprite := (m.memory.readBlock r.index i.nibble).map fun b => (b.toNat : Int)
  let hit ← onScreen (Screen.blit sprite (r.read i.x).toNat (r.read i.y).toNat)
  modify fun m => { m with registers := m.registers.setFlag hit }.syncDisplay

/-- Draws a random number and keeps the bits that the instruction's byte has. -/
def randomize (i : Instruction) (m : Machine) : Machine :=
  let (n, random) := m.random.draw 0 256
  { m with random := random, registers := m.registers.put i.x (UInt8.ofInt n &&& UInt8.ofInt i.byte) }

/-- Stores the lowest key that is down; without one, marks the machine as waiting. True if a key was stored. -/
def takeKey (i : Instruction) (m : Machine) : Bool × Machine :=
  match m.keypad.pressed with
  | k :: _ => (true, { m with registers := m.registers.write i.x k.val, waiting := false })
  | [] => (false, { m with waiting := true })

/-- Executes an instruction and answers with the address of the next one. -/
def execute (i : Instruction) : Action MemoryAddress := do
  let pc := (← get).pc
  let next := pc + 2
  if i.op ∈ Op.alu then
    onRegisters (Registers.alu i)
    return next
  else if i.op ∈ Op.skip then
    return if ← skips i then next + 2 else next
  else if i.op ∈ Op.index then
    indexed i
    return next
  else if i.op ∈ Op.timer then
    timed i
    return next
  else
    match i.op with
    | .jp => return i.addr
    | .jpv0 => return .ofInt (i.addr.val + ((← get).registers.read 0).toNat : Nat)
    | .call =>
      onStack (CallStack.push (.address next.address))
      return i.addr
    | .ret => onStack CallStack.pop
    | .cls =>
      modify fun m => { m with screen := m.screen.clear }.syncDisplay
      return next
    | .drw =>
      drawSprite i
      return next
    | .rnd =>
      modify (randomize i)
      return next
    | .ldk => return if ← modifyGet (takeKey i) then next else pc
    | .sys => return next
    | op => throw (.unimplemented op)

end Machine
end Chip8
