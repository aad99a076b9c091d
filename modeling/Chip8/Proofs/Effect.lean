import Chip8.Machine.Run
import Chip8.Proofs.Bytes

/-! # What an instruction does

`Effect i m a m'`: carrying out `i` on `m` leads to `m'`, which goes on at `a`. `Refusal i m f`: `i` cannot be
carried out on `m`, for the reason `f`. Together they are `execute` (`execute_eq_ok`, `execute_eq_error`), so that
what holds of every instruction is proved by cases on them. -/

namespace Chip8
open Machine

theorem MemoryAddress.val_ofInt (n : Int) : ((ofInt n).val : Int) = n % 4096 := Space.val_reduce .memory n (by decide)

theorem MemoryAddress.toMemoryAddress_address (a : MemoryAddress) :
    Operand.toMemoryAddress (.address a.address) = .ok a :=
  congrArg Except.ok (Space.reduce_val .memory a (by decide))

namespace CallStack

/-- A stack with one more return address. -/
def pushed (s : CallStack) (a : MemoryAddress) (h : s.depth < 16) : CallStack :=
  ⟨s.slots.set s.depth a, s.depth + 1, h⟩

/-- The newest return address. -/
def top (s : CallStack) (h : 0 < s.depth) : MemoryAddress :=
  have := s.depth_le
  s.slots[s.depth - 1]

/-- A stack without its newest return address. -/
def popped (s : CallStack) (h : 0 < s.depth) : CallStack :=
  have := s.depth_le
  ⟨s.slots.set (s.depth - 1) 0, s.depth - 1, by omega⟩

theorem push_address {s : CallStack} (a : MemoryAddress) (h : s.depth < 16) :
    push (.address a.address) s = .ok () (s.pushed a h) :=
  push_of_lt h a.toMemoryAddress_address

theorem pop_of_pos {s : CallStack} (h : 0 < s.depth) : pop s = .ok (s.top h) (s.popped h) := by
  simp only [pop, h, ↓reduceDIte, top, popped]

theorem toList_pushed (s : CallStack) (a : MemoryAddress) (h : s.depth < 16) :
    (s.pushed a h).toList = s.toList ++ [a] :=
  toList_set s a h

theorem toList_popped (s : CallStack) (h : 0 < s.depth) : s.toList = (s.popped h).toList ++ [s.top h] := by
  have hd := s.depth_le
  have hlt : s.depth - 1 < s.slots.toList.length := by rw [Vector.length_toList]; omega
  obtain ⟨n, hn⟩ : ∃ n, s.depth = n + 1 := ⟨s.depth - 1, by omega⟩
  simp only [toList, popped, top, hn, Nat.add_sub_cancel] at hlt ⊢
  rw [List.take_succ_eq_append_getElem hlt, Vector.toList_set, List.take_set_of_le (Nat.le_refl _)]
  rfl

end CallStack

/-- Bytes are drawn at the place that two bytes name: no byte is a column out of range. -/
theorem Screen.blit_bytes (s : Screen) (sprite : List UInt8) (x y : UInt8) :
    blit (sprite.map fun b => (b.toNat : Int)) x.toNat y.toNat s =
      .ok (s.draw sprite x.toNat y.toNat).1 (s.draw sprite x.toNat y.toNat).2 := by
  have hx := x.toNat_lt
  have hcolumn : ¬ ((x.toNat : Int) < -0x8000000000000000 ∨ 0x8000000000000000 ≤ (x.toNat : Int)) := by omega
  have hrows : (sprite.map fun b => (b.toNat : Int)).map UInt8.ofInt = sprite := by
    rw [List.map_map]
    exact List.map_id'' (fun b => ofInt_toNat b) sprite
  simp only [blit, hcolumn, ↓reduceIte, hrows]

namespace Machine
variable {i : Instruction} {m m' : Machine} {a : MemoryAddress} {f : Fault}

/-- How many bytes an instruction stores from the index register on, if memory has room. -/
def storeCount (i : Instruction) : Nat :=
  match i.op with
  | .ldbcd => 3
  | .dump => i.x + 1
  | _ => 0

/-- The bytes that an instruction stores from the index register on. -/
def storedBytes (i : Instruction) (m : Machine) : List UInt8 :=
  match i.op with
  | .ldbcd => decimalDigits (m.registers.read i.x)
  | .dump => m.registers.v.toList.take (i.x + 1)
  | _ => []

theorem length_storedBytes (i : Instruction) (m : Machine) : (storedBytes i m).length = storeCount i := by
  unfold storedBytes storeCount
  split
  · rfl
  · rw [List.length_take, Vector.length_toList]; omega
  · rfl

/-- Whether a sprite instruction turns a lit pixel off, and the screen after it. -/
def drawn (i : Instruction) (m : Machine) : Bool × Screen :=
  m.screen.draw (m.memory.readBlock m.registers.index i.nibble) (m.registers.read i.x).toNat
    (m.registers.read i.y).toNat

/-- The random number that an instruction keeps. -/
def randomByte (i : Instruction) (m : Machine) : UInt8 :=
  UInt8.ofInt (m.random.draw 0 256).1 &&& UInt8.ofInt i.byte

inductive Effect (i : Instruction) (m : Machine) : MemoryAddress → Machine → Prop
  | alu {r : Registers} (hop : i.op ∈ Op.alu) (hr : Registers.alu i m.registers = .ok () r) :
    Effect i m (m.pc + 2) { m with registers := r }
  | skip {b : Bool} (hop : i.op ∈ Op.skip) (hb : skips i m = .ok b m) :
    Effect i m (if b then m.pc + 2 + 2 else m.pc + 2) m
  | ldi (hop : i.op = .ldi) : Effect i m (m.pc + 2) { m with registers := m.registers.setIndex i.addr }
  | addi (hop : i.op = .addi) :
    Effect i m (m.pc + 2) { m with
      registers := m.registers.setIndex (.ofInt (m.registers.index.val + (m.registers.read i.x).toNat : Nat)) }
  | ldfi (hop : i.op = .ldfi) :
    Effect i m (m.pc + 2) { m with
      registers := m.registers.setIndex (.ofInt (Font.address (m.registers.read i.x).toNat)) }
  | store (hop : i.op = .ldbcd ∨ i.op = .dump) :
    Effect i m (m.pc + 2) { m with memory := m.memory.writeBlock m.registers.index (storedBytes i m) }
  | load (hop : i.op = .load) :
    Effect i m (m.pc + 2) { m with
      registers := m.registers.fill (m.memory.readBlock m.registers.index (i.x + 1 : Nat)) }
  | lddt (hop : i.op = .lddt) :
    Effect i m (m.pc + 2) { m with registers := m.registers.put i.x m.timers.delay }
  | setdt (hop : i.op = .setdt) :
    Effect i m (m.pc + 2) { m with timers := m.timers.setDelay (m.registers.read i.x).toNat }
  | setst (hop : i.op = .setst) :
    Effect i m (m.pc + 2) { m with timers := m.timers.setSound (m.registers.read i.x).toNat }
  | jp (hop : i.op = .jp) : Effect i m i.addr m
  | jpv0 (hop : i.op = .jpv0) : Effect i m (.ofInt (i.addr.val + (m.registers.read 0).toNat : Nat)) m
  | call (hop : i.op = .call) (hd : m.stack.depth < 16) :
    Effect i m i.addr { m with stack := m.stack.pushed (m.pc + 2) hd }
  | ret (hop : i.op = .ret) (hd : 0 < m.stack.depth) :
    Effect i m (m.stack.top hd) { m with stack := m.stack.popped hd }
  | cls (hop : i.op = .cls) :
    Effect i m (m.pc + 2) { m with
      screen := m.screen.clear
      memory := m.memory.writeDisplayBlock m.screen.clear.packed }
  | drw (hop : i.op = .drw) :
    Effect i m (m.pc + 2) { m with
      screen := (drawn i m).2
      registers := m.registers.setFlag (drawn i m).1
      memory := m.memory.writeDisplayBlock (drawn i m).2.packed }
  | rnd (hop : i.op = .rnd) :
    Effect i m (m.pc + 2) { m with
      random := (m.random.draw 0 256).2
      registers := m.registers.put i.x (randomByte i m) }
  | keyTaken {k : Fin 16} {ks : List (Fin 16)} (hop : i.op = .ldk) (hk : m.keypad.pressed = k :: ks) :
    Effect i m (m.pc + 2) { m with registers := m.registers.write i.x k.val, waiting := false }
  | keyAwaited (hop : i.op = .ldk) (hk : m.keypad.pressed = []) : Effect i m m.pc { m with waiting := true }
  | sys (hop : i.op = .sys) : Effect i m (m.pc + 2) m

inductive Refusal (i : Instruction) (m : Machine) : Fault → Prop
  | full (hop : i.op = .call) (hd : m.stack.depth = 16) : Refusal i m (.stackFull (.address (m.pc + 2).address))
  | empty (hop : i.op = .ret) (hd : m.stack.depth = 0) : Refusal i m .stackEmpty
  | unknown {name : String} (hop : i.op = .other name) : Refusal i m (.unimplemented (.other name))

theorem alu_eq_ok (h : i.op ∈ Op.alu) (r : Registers) : ∃ r', Registers.alu i r = .ok () r' := by
  obtain ⟨op, word, x, y, addr, byte, nibble⟩ := i
  simp only [Op.alu, List.mem_cons, List.not_mem_nil, or_false] at h
  rcases h with rfl | rfl | rfl | rfl | rfl | rfl | rfl | rfl | rfl | rfl | rfl <;> exact ⟨_, rfl⟩

theorem skips_eq_ok (h : i.op ∈ Op.skip) (m : Machine) : ∃ b, skips i m = .ok b m := by
  obtain ⟨op, word, x, y, addr, byte, nibble⟩ := i
  simp only [Op.skip, List.mem_cons, List.not_mem_nil, or_false] at h
  rcases h with rfl | rfl | rfl | rfl | rfl | rfl <;> exact ⟨_, rfl⟩

theorem execute_alu (h : i.op ∈ Op.alu) :
    execute i m = (onRegisters (Registers.alu i) >>= fun _ => pure (m.pc + 2)) m := by
  simp only [execute, h, ↓reduceIte]
  rfl

theorem execute_skip (h : i.op ∈ Op.skip) :
    execute i m = (skips i >>= fun b => pure (if b then m.pc + 2 + 2 else m.pc + 2)) m := by
  obtain ⟨op, word, x, y, addr, byte, nibble⟩ := i
  simp only [Op.skip, List.mem_cons, List.not_mem_nil, or_false] at h
  rcases h with rfl | rfl | rfl | rfl | rfl | rfl <;> rfl

theorem execute_call (h : i.op = .call) :
    execute i m = (onStack (CallStack.push (.address (m.pc + 2).address)) >>= fun _ => pure i.addr) m := by
  obtain ⟨op, word, x, y, addr, byte, nibble⟩ := i
  cases h
  rfl

theorem execute_ret (h : i.op = .ret) : execute i m = onStack CallStack.pop m := by
  obtain ⟨op, word, x, y, addr, byte, nibble⟩ := i
  cases h
  rfl

theorem execute_ldk (h : i.op = .ldk) :
    execute i m = .ok (if (takeKey i m).1 then m.pc + 2 else m.pc) (takeKey i m).2 := by
  obtain ⟨op, word, x, y, addr, byte, nibble⟩ := i
  cases h
  rfl

theorem execute_drw (h : i.op = .drw) : execute i m = (drawSprite i >>= fun _ => pure (m.pc + 2)) m := by
  obtain ⟨op, word, x, y, addr, byte, nibble⟩ := i
  cases h
  rfl

/-- The column that a register holds is never out of range. -/
theorem drawSprite_eq (i : Instruction) (m : Machine) : drawSprite i m = .ok () { m with
    screen := (drawn i m).2
    registers := m.registers.setFlag (drawn i m).1
    memory := m.memory.writeDisplayBlock (drawn i m).2.packed } := by
  have hblit : onScreen (Screen.blit ((m.memory.readBlock m.registers.index i.nibble).map fun b => (b.toNat : Int))
      (m.registers.read i.x).toNat (m.registers.read i.y).toNat) m =
      .ok (drawn i m).1 { m with screen := (drawn i m).2 } := by
    simp only [onScreen, Screen.blit_bytes, drawn]
  show EStateM.bind (onScreen (Screen.blit _ _ _)) _ m = _
  simp only [EStateM.bind, hblit]
  rfl

theorem Effect.execute (h : Effect i m a m') : execute i m = .ok a m' := by
  cases h with
  | alu hop hr =>
    rw [execute_alu hop]
    simp only [bind, EStateM.bind, onRegisters, hr]
    rfl
  | skip hop hb =>
    rw [execute_skip hop]
    simp only [bind, EStateM.bind, hb]
    rfl
  | call hop hd =>
    rw [execute_call hop]
    simp only [bind, EStateM.bind, onStack, CallStack.push_address _ hd]
    rfl
  | ret hop hd =>
    rw [execute_ret hop]
    simp only [onStack, CallStack.pop_of_pos hd]
  | store hop =>
    obtain ⟨op, word, x, y, addr, byte, nibble⟩ := i
    rcases hop with rfl | rfl <;> rfl
  | drw hop =>
    rw [execute_drw hop]
    simp only [bind, EStateM.bind, drawSprite_eq]
    rfl
  | keyTaken hop hk => rw [execute_ldk hop]; simp only [takeKey, hk, ↓reduceIte]
  | keyAwaited hop hk => rw [execute_ldk hop]; simp only [takeKey, hk, Bool.false_eq_true, ↓reduceIte]
  | _ =>
    obtain ⟨op, word, x, y, addr, byte, nibble⟩ := i
    rename_i hop
    cases hop
    rfl

/-- A refused instruction leaves the machine as it was. -/
theorem Refusal.execute (h : Refusal i m f) : execute i m = .error f m := by
  cases h with
  | full hop hd =>
    rw [execute_call hop]
    simp only [bind, EStateM.bind, onStack, CallStack.push_of_full _ hd]
    rfl
  | empty hop hd =>
    rw [execute_ret hop]
    simp only [onStack, CallStack.pop_of_empty hd]
  | unknown hop =>
    obtain ⟨op, word, x, y, addr, byte, nibble⟩ := i
    cases hop
    rfl

theorem effect_or_refusal (i : Instruction) (m : Machine) :
    (∃ a m', Effect i m a m') ∨ ∃ f, Refusal i m f := by
  have hle := m.stack.depth_le
  cases hop : i.op with
  | ild | iadd | rld | ror | rand | rxor | radd | rsub | rsubn | shr | shl =>
    have hmem : i.op ∈ Op.alu := by rw [hop]; decide
    obtain ⟨r, hr⟩ := alu_eq_ok hmem m.registers
    exact .inl ⟨_, _, .alu hmem hr⟩
  | ise | isne | rse | rsne | skp | sknp =>
    have hmem : i.op ∈ Op.skip := by rw [hop]; decide
    obtain ⟨b, hb⟩ := skips_eq_ok hmem m
    exact .inl ⟨_, _, .skip hmem hb⟩
  | call =>
    rcases Nat.lt_or_eq_of_le hle with hd | hd
    · exact .inl ⟨_, _, .call hop hd⟩
    · exact .inr ⟨_, .full hop hd⟩
  | ret =>
    rcases Nat.eq_zero_or_pos m.stack.depth with hd | hd
    · exact .inr ⟨_, .empty hop hd⟩
    · exact .inl ⟨_, _, .ret hop hd⟩
  | ldi => exact .inl ⟨_, _, .ldi hop⟩
  | addi => exact .inl ⟨_, _, .addi hop⟩
  | ldfi => exact .inl ⟨_, _, .ldfi hop⟩
  | ldbcd => exact .inl ⟨_, _, .store (.inl hop)⟩
  | dump => exact .inl ⟨_, _, .store (.inr hop)⟩
  | load => exact .inl ⟨_, _, .load hop⟩
  | lddt => exact .inl ⟨_, _, .lddt hop⟩
  | setdt => exact .inl ⟨_, _, .setdt hop⟩
  | setst => exact .inl ⟨_, _, .setst hop⟩
  | jp => exact .inl ⟨_, _, .jp hop⟩
  | jpv0 => exact .inl ⟨_, _, .jpv0 hop⟩
  | cls => exact .inl ⟨_, _, .cls hop⟩
  | drw => exact .inl ⟨_, _, .drw hop⟩
  | rnd => exact .inl ⟨_, _, .rnd hop⟩
  | ldk =>
    cases hk : m.keypad.pressed with
    | nil => exact .inl ⟨_, _, .keyAwaited hop hk⟩
    | cons k ks => exact .inl ⟨_, _, .keyTaken hop hk⟩
  | sys => exact .inl ⟨_, _, .sys hop⟩
  | other name => exact .inr ⟨_, .unknown hop⟩

theorem execute_eq_ok : execute i m = .ok a m' ↔ Effect i m a m' := by
  refine ⟨fun h => ?_, Effect.execute⟩
  rcases effect_or_refusal i m with ⟨a₁, m₁, he⟩ | ⟨f, hf⟩
  · rw [he.execute] at h
    cases h
    exact he
  · rw [hf.execute] at h
    cases h

theorem execute_eq_error : execute i m = .error f m' ↔ m' = m ∧ Refusal i m f := by
  constructor
  · intro h
    rcases effect_or_refusal i m with ⟨a₁, m₁, he⟩ | ⟨f₁, hf⟩
    · rw [he.execute] at h
      cases h
    · rw [hf.execute] at h
      cases h
      exact ⟨rfl, hf⟩
  · rintro ⟨rfl, hf⟩
    exact hf.execute

end Machine
end Chip8
