import Chip8.Proofs.Bytes
import Chip8.Proofs.DisplayWindow
import Chip8.Proofs.Requests

/-! # Well-formed machines

Whatever is asked of a machine, with integers of any size and whether it is met or refused, every part stays within its bounds
and no return address is left behind in a free slot of the stack (`WellFormed`). Integers enter the machine by their remainders
only: a history of requests leads to the same machine as the one whose arguments are all in range (`Request.reduced`). -/

namespace Chip8

/-! ### Free slots of the call stack -/

namespace CallStack
variable {s : CallStack}

/-- The free slots are clear. -/
def Tidy (s : CallStack) : Prop := ∀ j (_ : j < 16), s.depth ≤ j → s.slots[j] = 0

theorem tidy_empty : empty.Tidy := fun _ h _ => Vector.getElem_replicate h

theorem Tidy.pushed (hs : s.Tidy) (a : MemoryAddress) (h : s.depth < 16) : (s.pushed a h).Tidy := by
  intro j hj hle
  have hne : s.depth ≠ j := Nat.ne_of_lt hle
  rw [CallStack.pushed, Vector.getElem_set_ne h hj hne]
  exact hs j hj (Nat.le_of_lt hle)

theorem Tidy.popped (hs : s.Tidy) (h : 0 < s.depth) : (s.popped h).Tidy := by
  intro j hj hle
  have hd := s.depth_le
  change s.depth - 1 ≤ j at hle
  simp only [CallStack.popped, Vector.getElem_set]
  split
  · rfl
  · exact hs j hj (by omega)

end CallStack

namespace Machine
variable {i : Instruction} {m m' : Machine} {a : MemoryAddress}

/-- The free slots of the call stack are clear. -/
def IsTidy (m : Machine) : Prop := m.stack.Tidy

theorem Effect.isTidy (h : Effect i m a m') (hm : m.IsTidy) : m'.IsTidy := by
  cases h with
  | call _ hd => exact CallStack.Tidy.pushed hm (m.pc + 2) hd
  | ret _ hd => exact CallStack.Tidy.popped hm hd
  | _ => exact (show CallStack.Tidy m.stack from hm)

theorem keeps_isTidy_execute (i : Instruction) : Keeps IsTidy (execute i) := by
  intro m hm
  rcases effect_or_refusal i m with ⟨a, m', he⟩ | ⟨f, hf⟩
  · rw [leaves_of_ok he.execute]
    exact he.isTidy hm
  · rw [leaves_of_error hf.execute]
    exact hm

theorem keeps_isTidy_step : Keeps IsTidy step := by
  intro m hm
  rcases step_or_refusal m with ⟨r, m', h⟩ | ⟨i, f, hi, hf⟩
  · rw [leaves_of_ok h.step]
    cases h with
    | unrecognized => exact hm
    | executed _ he => exact he.isTidy hm
  · rw [leaves_of_error (step_of_refusal hi hf)]
    exact hm

theorem keeps_isTidy_push (v : Operand) : Keeps IsTidy (onStack (CallStack.push v)) := by
  intro m hm
  by_cases h : m.stack.depth < 16
  · cases hv : v.toMemoryAddress with
    | ok a =>
      have hpush : onStack (CallStack.push v) m = .ok () { m with stack := m.stack.pushed a h } := by
        simp only [onStack, CallStack.push_of_lt h hv, CallStack.pushed]
      rw [leaves_of_ok hpush]
      exact CallStack.Tidy.pushed hm a h
    | error e =>
      have hpush : onStack (CallStack.push v) m = .error (.operand e) m := by
        simp only [onStack, CallStack.push, h, hv, ↓reduceDIte]
      rw [leaves_of_error hpush]
      exact hm
  · have hfull : m.stack.depth = 16 := Nat.le_antisymm m.stack.depth_le (Nat.le_of_not_lt h)
    have hpush : onStack (CallStack.push v) m = .error (.ofFullStack v) m := by
      simp only [onStack, CallStack.push_of_full v hfull]
    rw [leaves_of_error hpush]
    exact hm

theorem keeps_isTidy_pop : Keeps IsTidy (onStack CallStack.pop) := by
  intro m hm
  rcases Nat.eq_zero_or_pos m.stack.depth with h | h
  · have hpop : onStack CallStack.pop m = .error .stackEmpty m := by simp only [onStack, CallStack.pop_of_empty h]
    rw [leaves_of_error hpop]
    exact hm
  · have hpop : onStack CallStack.pop m = .ok (m.stack.top h) { m with stack := m.stack.popped h } := by
      simp only [onStack, CallStack.pop_of_pos h]
    rw [leaves_of_ok hpop]
    exact CallStack.Tidy.popped hm h

theorem keeps_isTidy_blit (rows : List Int) (x y : Int) : Keeps IsTidy (onScreen (Screen.blit rows x y)) := by
  intro m hm
  have hstack : (leaves (onScreen (Screen.blit rows x y)) m).stack = m.stack := by
    unfold leaves onScreen Screen.blit
    by_cases hx : x < -0x8000000000000000 ∨ 0x8000000000000000 ≤ x
    · simp only [hx, ↓reduceIte]
    · simp only [hx, ↓reduceIte]
  rw [IsTidy, hstack]
  exact hm

theorem keeps_isTidy_perform (q : Request) : Keeps IsTidy q.perform := by
  have hload (rom : List UInt8) : Keeps IsTidy (Request.load rom).perform := by
    intro m hm
    show CallStack.Tidy (m.load rom).2.stack
    obtain ⟨notices, h⟩ := m.exists_load_eq rom
    rw [h]
    exact hm
  cases q with
  | load rom => exact hload rom
  | step => exact keeps_isTidy_step.map _
  | run n k => exact (Keeps.run keeps_isTidy_step (fun _ hm => hm) n k).map _
  | execute i => exact (keeps_isTidy_execute i).map _
  | push v => exact (keeps_isTidy_push v).map _
  | pop => exact keeps_isTidy_pop.map _
  | blit rows x y => exact (keeps_isTidy_blit rows x y).map _
  | reset | clearStack => exact fun _ _ => CallStack.tidy_empty
  | jump | write | writeBlock | setRegister | setIndex => exact .withOperand fun _ _ hm => hm
  | _ => exact fun _ hm => hm

end Machine

/-! ### Integers of any size -/

theorem Space.reduce_emod (s : Space) (n : Int) (h : 0 < s.capacity) : s.reduce (n % s.capacity) h = s.reduce n h := by
  simp only [Space.reduce, Int.emod_emod]

theorem Keypad.key_emod (k : Int) : key (k % 16) = key k := by
  simp only [key, Int.emod_emod]

theorem Screen.draw_emod (s : Screen) (sprite : List UInt8) (x y : Int) : s.draw sprite x (y % 32) = s.draw sprite x y := by
  simp only [draw, Int.emod_emod]

/-- Only the bytes that memory has room for count. -/
theorem Memory.readBlock_congr (m : Memory) (a : MemoryAddress) {l l' : Int} (h : room a l = room a l') :
    m.readBlock a l = m.readBlock a l' := by
  have hle := add_room_le a l
  refine List.ext_getElem (by rw [length_readBlock, length_readBlock, h]) fun j hj hj' => ?_
  rw [length_readBlock] at hj
  rw [getElem_readBlock m a l j _ (by omega), getElem_readBlock m a l' j _ (by omega)]

/-- The operand with an integer in range. -/
def Operand.reduced (s : Space) : Operand → Operand
  | int n => int (n % s.capacity)
  | v => v

theorem Operand.within_reduced (s : Space) (v : Operand) : (v.reduced s).within s = v.within s := by
  cases v with
  | int n =>
    simp only [reduced, within, toInt, bind, Except.bind, reduceInto]
    split
    · rw [Space.reduce_emod]
    · rfl
  | _ => rfl

namespace Instruction

/-- The instruction with a byte in range if one is stored, and with no more rows than memory has bytes if some are drawn.
Comparisons take a byte as it is. -/
def reduced (i : Instruction) : Instruction :=
  match i.op with
  | .ild | .iadd | .rnd => { i with byte := i.byte % 256 }
  | .drw => { i with nibble := min (max 0 i.nibble) 4096 }
  | _ => i

variable (i : Instruction)

theorem op_reduced : i.reduced.op = i.op := by
  unfold reduced
  split <;> rfl

theorem alu_reduced : Registers.alu i.reduced = Registers.alu i := by
  obtain ⟨op, word, x, y, addr, byte, nibble⟩ := i
  funext r
  cases op with
  | ild => simp only [reduced, Registers.alu, Registers.write, ofInt_emod]
  | iadd => simp only [reduced, Registers.alu, Registers.write, ofInt_add_emod]
  | _ => rfl

theorem randomByte_reduced (h : i.op = .rnd) (m : Machine) : Machine.randomByte i.reduced m = Machine.randomByte i m := by
  simp only [Machine.randomByte, reduced, h, ofInt_emod]

theorem drawn_reduced (h : i.op = .drw) (m : Machine) : Machine.drawn i.reduced m = Machine.drawn i m := by
  have hroom : Memory.room m.registers.index (min (max 0 i.nibble) 4096) = Memory.room m.registers.index i.nibble := by
    simp only [Memory.room]
    omega
  simp only [Machine.drawn, reduced, h, m.memory.readBlock_congr m.registers.index hroom]

theorem execute_reduced : Machine.execute i.reduced = Machine.execute i := by
  funext m
  have hop := i.op_reduced
  cases h : i.op with
  | ild | iadd =>
    have halu : i.op ∈ Op.alu := by rw [h]; decide
    rw [Machine.execute_alu halu, Machine.execute_alu (hop ▸ halu), alu_reduced]
  | rnd =>
    rw [(Machine.Effect.rnd h).execute, (Machine.Effect.rnd (hop.trans h)).execute, i.randomByte_reduced h]
    simp only [reduced, h]
  | drw =>
    rw [(Machine.Effect.drw h).execute, (Machine.Effect.drw (hop.trans h)).execute, i.drawn_reduced h]
  | _ => simp only [reduced, h]

end Instruction

namespace Request

/-- The request with arguments in range. The column of a sprite and the operand of a push are named in refusals and stay. -/
def reduced : Request → Request
  | press key => press (key % 16)
  | release key => release (key % 16)
  | execute i => execute i.reduced
  | jump a => jump (a.reduced .memory)
  | write a n => write (a.reduced .memory) (n % 256)
  | writeBlock a data => writeBlock (a.reduced .memory) data
  | setRegister x n => setRegister (x.reduced .register) (n % 256)
  | setIndex a => setIndex (a.reduced .memory)
  | setDelay n => setDelay (n % 256)
  | setSound n => setSound (n % 256)
  | blit rows x y => blit (rows.map (· % 256)) x (y % 32)
  | q => q

theorem perform_reduced (q : Request) : q.reduced.perform = q.perform := by
  cases q with
  | press key | release key =>
    simp only [reduced, perform, Keypad.press, Keypad.release, Keypad.set, Keypad.key_emod]
  | execute i => simp only [reduced, perform, i.execute_reduced]
  | jump a | writeBlock a | setIndex a =>
    simp only [reduced, perform, Operand.toMemoryAddress, Operand.within_reduced]
  | write a n =>
    simp only [reduced, perform, Operand.toMemoryAddress, Operand.within_reduced, Memory.write, ofInt_emod]
  | setRegister x n =>
    simp only [reduced, perform, Operand.toRegisterIndex, Operand.within_reduced, Registers.write, ofInt_emod]
  | setDelay n | setSound n =>
    simp only [reduced, perform, Timers.setDelay, Timers.setSound, ofInt_emod]
  | blit rows x y =>
    have hrows : (rows.map (· % 256)).map UInt8.ofInt = rows.map UInt8.ofInt := by
      simp only [List.map_map, List.map_inj_left, Function.comp_apply, ofInt_emod, implies_true]
    have hblit : Screen.blit (rows.map (· % 256)) x (y % 32) = Screen.blit rows x y := by
      funext s
      simp only [Screen.blit, hrows, Screen.draw_emod]
    simp only [reduced, perform, hblit]
  | _ => rfl

end Request

/-! ### Bounds of all parts -/

/-- The pixels row by row, as numbers. -/
def Screen.grid (s : Screen) : List (List Nat) :=
  s.rows.toList.map fun row => (List.range 64).map fun x => (row.getMsbD x).toNat

theorem Screen.length_of_mem_grid {s : Screen} {line : List Nat} (h : line ∈ s.grid) :
    line.length = 64 ∧ ∀ p ∈ line, p = 0 ∨ p = 1 := by
  obtain ⟨row, -, rfl⟩ := List.mem_map.mp h
  refine ⟨by rw [List.length_map, List.length_range], fun p hp => ?_⟩
  obtain ⟨x, -, rfl⟩ := List.mem_map.mp hp
  cases row.getMsbD x with
  | false => exact .inl rfl
  | true => exact .inr rfl

theorem toNat_le_of_byte (b : UInt8) : b.toNat ≤ 255 := Nat.le_of_lt_succ b.toNat_lt

namespace Machine

/-- Every part of the machine is within its bounds, and the free slots of the call stack are clear. -/
structure WellFormed (m : Machine) : Prop where
  memory : m.memory.cells.toList.length = 4096 ∧ ∀ b ∈ m.memory.cells.toList, b.toNat ≤ 255
  registers : m.registers.v.toList.length = 16 ∧ ∀ b ∈ m.registers.v.toList, b.toNat ≤ 255
  timers : m.timers.delay.toNat ≤ 255 ∧ m.timers.sound.toNat ≤ 255
  pc : m.pc.val ≤ 4095
  index : m.registers.index.val ≤ 4095
  grid : m.screen.grid.length = 32 ∧ ∀ line ∈ m.screen.grid, line.length = 64 ∧ ∀ p ∈ line, p = 0 ∨ p = 1
  depth : m.stack.depth ≤ 16
  slots : m.stack.slots.toList.length = 16 ∧ ∀ a ∈ m.stack.slots.toList.drop m.stack.depth, a = 0
  packed : m.screen.packed.length = 256

theorem IsTidy.wellFormed {m : Machine} (h : m.IsTidy) : m.WellFormed where
  memory := ⟨m.memory.cells.length_toList, fun b _ => toNat_le_of_byte b⟩
  registers := ⟨m.registers.v.length_toList, fun b _ => toNat_le_of_byte b⟩
  timers := ⟨toNat_le_of_byte _, toNat_le_of_byte _⟩
  pc := Nat.le_of_lt_succ m.pc.isLt
  index := Nat.le_of_lt_succ m.registers.index.isLt
  grid := ⟨by rw [Screen.grid, List.length_map, Vector.length_toList], fun _ => Screen.length_of_mem_grid⟩
  depth := m.stack.depth_le
  slots := by
    refine ⟨m.stack.slots.length_toList, fun a ha => ?_⟩
    obtain ⟨j, hj, rfl⟩ := List.mem_iff_getElem.mp ha
    rw [List.length_drop, Vector.length_toList] at hj
    rw [List.getElem_drop, Vector.getElem_toList]
    exact h _ (by omega) (Nat.le_add_right _ _)
  packed := m.screen.length_packed

theorem served_reduced (m : Machine) (qs : List Request) : m.served (qs.map Request.reduced) = m.served qs := by
  simp only [served, List.foldl_map, Request.perform_reduced]

/-- Whatever was asked of a new machine, with operands and integers of any kind and any numbers drawn, it is well-formed; and it
is the machine that the same requests with arguments in range lead to. -/
theorem wellFormed_served (keypad : Keypad) (random : RandomSource) (qs : List Request) :
    ((new keypad random).served qs).WellFormed ∧
    (new keypad random).served (qs.map Request.reduced) = (new keypad random).served qs := by
  have hnew : (new keypad random).IsTidy := CallStack.tidy_empty
  refine ⟨?_, served_reduced _ qs⟩
  exact (Keeps.served keeps_isTidy_perform hnew qs).wellFormed

end Machine
end Chip8
