import Chip8.Proofs.Decoding
import Chip8.Proofs.Ledger

/-! # Where a step goes on

The word at the program counter is made of two bytes, the second of which may be the first one of the memory. `successor` tells
from the digits of that word where a completed step goes on: at an address that the word, a register or the stack gives,
at the same word while a key is waited for, or behind the next one or two words, where addresses wrap. -/

namespace Chip8

theorem RegisterIndex.val_ofInt (n : Int) : ((ofInt n).val : Int) = n % 16 := Space.val_reduce .register n (by decide)

theorem Keypad.isPressed_natCast (p : Keypad) (n : Nat) : p.isPressed n = (p.pressed.map Fin.val).contains (n % 16) := by
  have hkey : (key n).val = n % 16 := by
    show ((n : Int) % 16).toNat = n % 16
    omega
  rw [Bool.eq_iff_iff, isPressed_iff, List.contains_iff_mem, ← hkey, List.mem_map_of_injective Fin.val_injective]

/-! ### Operands and the word they were decoded from -/

namespace Instruction
variable {w : Nat} {i : Instruction}

/-- An instruction is read from the digits of its word, by a format of its operation. -/
theorem exists_read_of_decode (h : decode w = some i) :
    ∃ f : Format, f.layout = i.op.layout ∧ i = f.read (Digits.ofNat (w % 65536)) := by
  obtain ⟨f, hf, rfl⟩ := Option.map_eq_some_iff.mp h
  have hfits := Format.fits_of_mem f (List.mem_of_find?_eq_some hf)
  refine ⟨f, ?_, ?_⟩
  · rw [op_read, hfits.layout_eq]
  · rw [show ((w : Int) % 65536).toNat = w % 65536 by omega]

theorem addr_of_decode (h : decode w = some i) (hl : i.op.layout = .address) : i.addr.val = w % 4096 := by
  obtain ⟨f, hf, rfl⟩ := exists_read_of_decode h
  simp only [Format.read, hf.trans hl, Digits.addr, Digits.ofNat, Fin.ofNat]
  omega

theorem byte_of_decode (h : decode w = some i) (hl : i.op.layout = .immediate) : i.byte = (w % 256 : Nat) := by
  obtain ⟨f, hf, rfl⟩ := exists_read_of_decode h
  simp only [Format.read, hf.trans hl, Digits.byte, Digits.ofNat, Fin.ofNat]
  omega

theorem x_of_decode (h : decode w = some i) (hl : i.op.layout ∉ [.bare, .address]) : i.x = .ofInt (w / 256) := by
  have hval := RegisterIndex.val_ofInt (w / 256)
  obtain ⟨f, hf, rfl⟩ := exists_read_of_decode h
  rw [← hf] at hl
  refine Fin.ext ?_
  cases hlayout : f.layout with
  | bare | address => simp [hlayout] at hl
  | _ =>
    simp only [Format.read, hlayout, Digits.ofNat, Fin.ofNat]
    omega

theorem y_of_decode (h : decode w = some i) (hl : i.op.layout = .pair) : i.y = .ofInt (w / 16) := by
  have hval := RegisterIndex.val_ofInt (w / 16)
  obtain ⟨f, hf, rfl⟩ := exists_read_of_decode h
  refine Fin.ext ?_
  simp only [Format.read, hf.trans hl, Digits.ofNat, Fin.ofNat]
  omega

end Instruction

namespace Machine
variable {i : Instruction} {m m' : Machine} {a : MemoryAddress} {r : Option Instruction}

/-- The word at the program counter, the high byte first. -/
def wordAt (m : Machine) : Nat :=
  m.memory.cells[m.pc.val].toNat * 256 + m.memory.cells[(m.pc.val + 1) % 4096].toNat

/-! ### The successor of a step -/

/-- Whether an operation skips: a register is compared with the last two digits of the word or with another register, or the
key that its low four bits name is looked at. -/
def skipHolds (m : Machine) (op : Op) : Bool :=
  let vx := (m.registers.read (.ofInt (m.wordAt / 256))).toNat
  let vy := (m.registers.read (.ofInt (m.wordAt / 16))).toNat
  match op with
  | .ise => vx == m.wordAt % 256
  | .isne => vx != m.wordAt % 256
  | .rse => vx == vy
  | .rsne => vx != vy
  | .skp => (m.keypad.pressed.map Fin.val).contains (vx % 16)
  | .sknp => !(m.keypad.pressed.map Fin.val).contains (vx % 16)
  | _ => false

/-- Where a step goes on that executes an operation, or skips a word that is none. -/
def successor (m : Machine) : Option Op → Nat
  | some .jp | some .call => m.wordAt % 4096
  | some .jpv0 => (m.wordAt % 4096 + (m.registers.read 0).toNat) % 4096
  | some .ret => (m.stack.toList.getLastD 0).val
  | some .ldk => if m.keypad.pressed = [] then m.pc.val else (m.pc.val + 2) % 4096
  | some op => if m.skipHolds op then (m.pc.val + 4) % 4096 else (m.pc.val + 2) % 4096
  | none => (m.pc.val + 2) % 4096

theorem val_add_two (a : MemoryAddress) : (a + 2).val = (a.val + 2) % 4096 := Fin.val_add a 2

theorem val_add_four (a : MemoryAddress) : (a + 2 + 2).val = (a.val + 4) % 4096 := by
  rw [val_add_two, val_add_two]
  omega

theorem skips_eq (hi : m.fetched = some i) (hop : i.op ∈ Op.skip) : skips i m = .ok (m.skipHolds i.op) m := by
  have hi : Instruction.decode m.wordAt = some i := hi
  have hx := Instruction.x_of_decode hi
  have hy := Instruction.y_of_decode hi
  have hbyte := Instruction.byte_of_decode hi
  have hcast (a b : Nat) : ((a : Int) == (b : Int)) = (a == b) := by
    rw [Bool.eq_iff_iff, beq_iff_eq, beq_iff_eq, Int.natCast_inj]
  have hbytes (a b : UInt8) : (a == b) = (a.toNat == b.toNat) := by
    rw [Bool.eq_iff_iff, beq_iff_eq, beq_iff_eq, UInt8.toNat_inj]
  simp only [Op.skip, List.mem_cons, List.not_mem_nil, or_false] at hop
  rcases hop with hop | hop | hop | hop | hop | hop <;> rw [hop] at hx hy hbyte
  · simp only [skips, skipHolds, hop, hx (by decide), hbyte rfl, hcast]
  · simp only [skips, skipHolds, hop, hx (by decide), hbyte rfl, bne, hcast]
  · simp only [skips, skipHolds, hop, hx (by decide), hy rfl, hbytes]
  · simp only [skips, skipHolds, hop, hx (by decide), hy rfl, bne, hbytes]
  · simp only [skips, skipHolds, hop, hx (by decide), Keypad.isPressed_natCast]
  · simp only [skips, skipHolds, hop, hx (by decide), Keypad.isPressed_natCast]

theorem successor_of_skip {op : Op} (h : op ∈ Op.skip) : m.successor (some op) =
    if m.skipHolds op then (m.pc.val + 4) % 4096 else (m.pc.val + 2) % 4096 := by
  simp only [Op.skip, List.mem_cons, List.not_mem_nil, or_false] at h
  rcases h with rfl | rfl | rfl | rfl | rfl | rfl <;> rfl

/-- Operations that do not mention the program counter go on with the next word. -/
theorem successor_of_next {op : Op} (h : op ∉ [.jp, .call, .jpv0, .ret, .ldk] ++ Op.skip) :
    m.successor (some op) = (m.pc.val + 2) % 4096 := by
  cases op
  case jp | call | jpv0 | ret | ldk | ise | isne | rse | rsne | skp | sknp => exact absurd (by decide) h
  all_goals rfl

theorem Effect.val_eq_successor (h : Effect i m a m') (hi : m.fetched = some i) : a.val = m.successor (some i.op) := by
  have hdecode : Instruction.decode m.wordAt = some i := hi
  have hnext (hop : i.op ∉ [.jp, .call, .jpv0, .ret, .ldk] ++ Op.skip) :
      (m.pc + 2).val = m.successor (some i.op) := by
    rw [successor_of_next hop, val_add_two]
  cases h with
  | alu hop hr =>
    refine hnext fun hmem => ?_
    have hapart : ∀ op ∈ Op.alu, op ∉ [.jp, .call, .jpv0, .ret, .ldk] ++ Op.skip := by decide
    exact hapart _ hop hmem
  | skip hop hb =>
    rw [skips_eq hi hop] at hb
    cases hb
    rw [successor_of_skip hop]
    split
    · exact val_add_four m.pc
    · exact val_add_two m.pc
  | jp hop =>
    rw [hop]
    exact Instruction.addr_of_decode hdecode (by rw [hop]; rfl)
  | call hop hd =>
    rw [hop]
    exact Instruction.addr_of_decode hdecode (by rw [hop]; rfl)
  | jpv0 hop =>
    have haddr := Instruction.addr_of_decode hdecode (by rw [hop]; rfl)
    have hval := MemoryAddress.val_ofInt (i.addr.val + (m.registers.read 0).toNat : Nat)
    rw [hop, successor, ← haddr]
    omega
  | ret hop hd =>
    rw [hop, successor, m.stack.toList_popped hd, List.getLastD_concat]
  | keyTaken hop hk =>
    rw [hop, successor, if_neg (by rw [hk]; exact List.cons_ne_nil _ _), val_add_two]
  | keyAwaited hop hk => rw [hop, successor, if_pos hk]
  | store hop =>
    rcases hop with hop | hop
    · exact hnext (by rw [hop]; decide)
    · exact hnext (by rw [hop]; decide)
  | _ =>
    rename_i hop
    exact hnext (by rw [hop]; decide)

/-- A completed step of `m` with the answer `r` goes on at the successor, and the stack gives and takes return addresses. -/
structure GoesOn (m : Machine) (r : Option Instruction) (m' : Machine) : Prop where
  answer : r = Instruction.decode m.wordAt
  pc : m'.pc.val = m.successor (r.map (·.op))
  pushed : ∀ i, r = some i → i.op = .call →
    ∃ back : MemoryAddress, back.val = (m.pc.val + 2) % 4096 ∧ m'.stack.toList = m.stack.toList ++ [back]
  popped : ∀ i, r = some i → i.op = .ret → m.stack.toList = m'.stack.toList ++ [m'.pc]

theorem Step.goesOn (h : Step m r m') : GoesOn m r m' := by
  cases h with
  | unrecognized h =>
    refine ⟨h.symm, val_add_two m.pc, ?_, ?_⟩
    · intro i hr
      cases hr
    · intro i hr
      cases hr
  | executed hi he =>
    refine ⟨hi.symm, he.val_eq_successor hi, ?_, ?_⟩
    · intro i hr hop
      cases hr
      obtain ⟨hd, rfl⟩ := he.of_call hop
      exact ⟨m.pc + 2, val_add_two m.pc, m.stack.toList_pushed _ hd⟩
    · intro i hr hop
      cases hr
      obtain ⟨hd, -⟩ := he.of_ret hop
      obtain ⟨rfl, rfl⟩ := he.unique (.ret hop hd)
      exact m.stack.toList_popped hd

/-- Two operations of which each skips if the other does not. -/
def opposites : List (Op × Op) := [(.ise, .isne), (.rse, .rsne), (.skp, .sknp)]

theorem skips_opposite {ops : Op × Op} (h : ops ∈ opposites) (i : Instruction) (m : Machine) :
    ∃ b, skips { i with op := ops.1 } m = .ok b m ∧ skips { i with op := ops.2 } m = .ok (!b) m := by
  simp only [opposites, List.mem_cons, List.not_mem_nil, or_false] at h
  rcases h with rfl | rfl | rfl <;> exact ⟨_, rfl, rfl⟩

theorem execute_of_skips {b : Bool} (hop : i.op ∈ Op.skip) (hb : skips i m = .ok b m) :
    execute i m = .ok (if b then m.pc + 2 + 2 else m.pc + 2) m := (Effect.skip hop hb).execute

/-- A completed step goes on at the successor that the word at the program counter tells, whether or not that word goes on
with the first byte of the memory; a call pushes the address of the next word and a return pops the one it goes on at. Of
two opposite skips with the same operands one skips the next word and the other does not. -/
theorem step_goes_on :
    (∀ (m : Machine) r m', m.step = .ok r m' → GoesOn m r m') ∧
    ∀ ops ∈ opposites, ∀ (i : Instruction) (m : Machine), ∃ next skipped : MemoryAddress,
      next.val = (m.pc.val + 2) % 4096 ∧ skipped.val = (m.pc.val + 4) % 4096 ∧
      (execute { i with op := ops.1 } m = .ok skipped m ∧ execute { i with op := ops.2 } m = .ok next m ∨
        execute { i with op := ops.1 } m = .ok next m ∧ execute { i with op := ops.2 } m = .ok skipped m) := by
  refine ⟨fun m r m' h => (step_eq_ok.mp h).goesOn, ?_⟩
  intro ops hops i m
  have hskip : ops.1 ∈ Op.skip ∧ ops.2 ∈ Op.skip := by
    have hall : ∀ ops ∈ opposites, ops.1 ∈ Op.skip ∧ ops.2 ∈ Op.skip := by decide
    exact hall ops hops
  obtain ⟨b, hb, hb'⟩ := skips_opposite hops i m
  have h := execute_of_skips hskip.1 hb
  have h' := execute_of_skips hskip.2 hb'
  refine ⟨m.pc + 2, m.pc + 2 + 2, val_add_two m.pc, val_add_four m.pc, ?_⟩
  cases b with
  | true => exact .inl ⟨h, h'⟩
  | false => exact .inr ⟨h, h'⟩

/-- A skip whose word begins with the last byte of the memory and ends with the first one: VA is 5, so the word at 1 is skipped. -/
theorem step_goes_on_across_end :
    let i : Instruction := { op := .ise, word := 0x3A05, x := 0xA, byte := 5 }
    let m : Machine := { new .released (.ofScript #[]) with
      memory := (Memory.blank.write 0xFFF 0x3A).write 0 5
      registers := Registers.blank.put 0xA 5
      pc := 0xFFF }
    m.wordAt = 0x3A05 ∧ (∃ m', m.step = .ok (some i) m' ∧ GoesOn m (some i) m' ∧ m'.pc = 0x003) ∧
      (Op.ise, Op.isne) ∈ opposites ∧ execute { i with op := .ise } m = .ok 0x003 m ∧
      execute { i with op := .isne } m = .ok 0x001 m := by
  intro i m
  have hlast : m.pc.val = 0xFFF := rfl
  have hword : m.wordAt = 0x3A05 := by decide +kernel
  have hi : m.fetched = some i := by
    show Instruction.decode m.wordAt = some i
    rw [hword]
    decide +kernel
  have hholds : m.skipHolds .ise = true := by decide +kernel
  have hb : skips i m = .ok true m := by
    rw [skips_eq hi (by decide)]
    exact congrArg (EStateM.Result.ok · m) hholds
  have he : Effect i m (m.pc + 2 + 2) m := .skip (by decide) hb
  have hs := (Step.executed hi he).step
  have hgoes := step_goes_on.1 _ _ _ hs
  have hpc : m.successor (some .ise) = 0x003 := by
    rw [successor_of_skip (by decide), if_pos hholds, hlast]
  have hops : (Op.ise, Op.isne) ∈ opposites := by decide
  obtain ⟨next, skipped, hnext, hskipped, h⟩ := step_goes_on.2 _ hops i m
  rw [hlast] at hnext hskipped
  obtain rfl : next = 0x001 := Fin.ext hnext
  obtain rfl : skipped = 0x003 := Fin.ext hskipped
  refine ⟨hword, ⟨_, hs, hgoes, Fin.ext (hgoes.pc.trans hpc)⟩, hops, ?_⟩
  rcases h with h | ⟨h, -⟩
  · exact h
  · have heq := he.execute.symm.trans h
    cases heq

end Machine
end Chip8
