import Chip8.Proofs.Blocks
import Chip8.Proofs.Footprint

/-! # Registers in memory and back

One operation stores the first registers in memory and another loads them from there. Both meet the end of the memory at
the same register (`transferCount`), so each undoes what the other one did, wherever the index register points. -/

namespace Chip8

namespace Registers
variable {r r' : Registers} {y : RegisterIndex}

theorem read_fill_of_lt {bytes : List UInt8} (h : y.val < bytes.length) : (r.fill bytes).read y = bytes[y.val] := by
  simp only [read, fill, Fin.getElem_fin, getElem_overlay]
  rw [dif_pos ⟨Nat.zero_le _, by omega⟩]
  rfl

theorem eq_of_read (h : ∀ y, r.read y = r'.read y) (hindex : r.index = r'.index) : r = r' := by
  cases r
  cases r'
  cases hindex
  rw [Registers.mk.injEq]
  exact ⟨Vector.ext fun y hy => h ⟨y, hy⟩, rfl⟩

end Registers

namespace Machine
variable {i : Instruction} {m : Machine} {memory : Memory} {registers : Registers} {count : Nat}

/-- How many of the registers up to the one that is named have a byte in memory, from the index register on. -/
def transferCount (i : Instruction) (m : Machine) : Nat := min (i.x.val + 1) (4096 - m.registers.index.val)

/-- The memory holds the first `count` registers from the index register on, and is otherwise that of the machine. -/
structure Stores (m : Machine) (count : Nat) (memory : Memory) : Prop where
  stored : ∀ j : RegisterIndex, j.val < count →
    memory.cells[m.registers.index.val + j.val]? = some (m.registers.read j)
  kept : ∀ k (_ : k < 4096), ¬ (m.registers.index.val ≤ k ∧ k < m.registers.index.val + count) →
    memory.cells[k] = m.memory.cells[k]

/-- The first `count` registers hold the bytes from the index register on, and the others are those of the machine. -/
structure Loads (m : Machine) (count : Nat) (registers : Registers) : Prop where
  loaded : ∀ j : RegisterIndex, j.val < count →
    m.memory.cells[m.registers.index.val + j.val]? = some (registers.read j)
  kept : ∀ j : RegisterIndex, count ≤ j.val → registers.read j = m.registers.read j
  index : registers.index = m.registers.index

/-- Registers that are loaded from where they were stored are what they were. -/
theorem Stores.loads_back (hs : Stores m count memory) (hl : Loads { m with memory := memory } count registers) :
    registers = m.registers := by
  refine Registers.eq_of_read (fun j => ?_) hl.index
  by_cases hj : j.val < count
  · have hloaded := hl.loaded j hj
    have hstored := hs.stored j hj
    exact Option.some.inj (hloaded.symm.trans hstored)
  · exact hl.kept j (Nat.le_of_not_lt hj)

/-- Bytes that are stored where they were loaded from are what they were. -/
theorem Loads.stores_back (hl : Loads m count registers) (hcount : count ≤ 16)
    (hs : Stores { m with registers := registers } count memory) : memory = m.memory := by
  rw [Memory.mk.injEq]
  refine Vector.ext fun k hk => ?_
  by_cases hmem : m.registers.index.val ≤ k ∧ k < m.registers.index.val + count
  · obtain ⟨j, rfl⟩ := Nat.exists_eq_add_of_le hmem.1
    have hj : j < count := by omega
    have hloaded := hl.loaded ⟨j, by omega⟩ hj
    have hstored := hs.stored ⟨j, by omega⟩ hj
    simp only [hl.index] at hstored
    have heq := hstored.trans hloaded.symm
    rwa [Vector.getElem?_eq_getElem hk, Vector.getElem?_eq_getElem hk, Option.some_inj] at heq
  · have hkept := hs.kept k hk
    simp only [hl.index] at hkept
    exact hkept hmem

theorem stores_of_dump (hop : i.op = .dump) (m : Machine) :
    Stores m (transferCount i m) (m.memory.writeBlock m.registers.index (storedBytes i m)) := by
  have hlen : (storedBytes i m).length = i.x.val + 1 := by rw [length_storedBytes, storeCount, hop]
  constructor
  · intro j hj
    unfold transferCount at hj
    have hlt : m.registers.index.val + j.val < 4096 := by omega
    rw [Vector.getElem?_eq_getElem hlt, Memory.cells_writeBlock _ (by omega) hlt, getElem_storedBytes hop]
  · intro k hk hmem
    refine Memory.cells_writeBlock_of_outside hk fun hin => hmem ?_
    unfold transferCount
    omega

theorem loads_of_load (i : Instruction) (m : Machine) :
    Loads m (transferCount i m) (m.registers.fill (m.memory.readBlock m.registers.index (i.x.val + 1 : Nat))) := by
  have hlen : (m.memory.readBlock m.registers.index (i.x.val + 1 : Nat)).length = transferCount i m := by
    rw [Memory.length_readBlock]
    rfl
  constructor
  · intro j hj
    have hlt : m.registers.index.val + j.val < 4096 := by
      unfold transferCount at hj
      omega
    rw [← hlen] at hj
    rw [Registers.read_fill_of_lt hj, Memory.getElem_readBlock _ _ _ _ hj hlt, Vector.getElem?_eq_getElem hlt]
  · intro j hj
    rw [← hlen] at hj
    exact Registers.read_fill_of_le hj
  · rfl

theorem transferCount_le (i : Instruction) (m : Machine) : transferCount i m ≤ 16 := by
  unfold transferCount
  omega

/-- Storing registers and loading them go as far as the memory goes, and no register or byte beyond that is touched. Loading
what was just stored changes nothing, and neither does storing what was just loaded. -/
theorem dump_load_undo (m : Machine) (d l : Instruction) (hd : d.op = .dump) (hl : l.op = .load) (hx : l.x = d.x) :
    (∃ memory, execute d m = .ok (m.pc + 2) { m with memory := memory } ∧ Stores m (transferCount d m) memory ∧
      execute l { m with memory := memory } = .ok (m.pc + 2) { m with memory := memory }) ∧
    ∃ registers, execute l m = .ok (m.pc + 2) { m with registers := registers } ∧
      Loads m (transferCount d m) registers ∧
      execute d { m with registers := registers } = .ok (m.pc + 2) { m with registers := registers } := by
  -- Both operations count alike, before and after, as neither moves the index register.
  have hcount (m : Machine) : transferCount l m = transferCount d m := by rw [transferCount, hx, transferCount]
  refine ⟨⟨_, (Effect.store (.inr hd)).execute, stores_of_dump hd m, ?_⟩,
    ⟨_, (Effect.load hl).execute, hcount m ▸ loads_of_load l m, ?_⟩⟩
  · have hstores := stores_of_dump hd m
    generalize m.memory.writeBlock m.registers.index (storedBytes d m) = memory at hstores
    have hloads := loads_of_load l { m with memory := memory }
    rw [hcount] at hloads
    rw [(Effect.load hl).execute, hstores.loads_back hloads]
  · have hloads := loads_of_load l m
    rw [hcount] at hloads
    generalize m.registers.fill _ = registers at hloads
    have hstores := stores_of_dump hd { m with registers := registers }
    have hsame : transferCount d { m with registers := registers } = transferCount d m := by
      simp only [transferCount, hloads.index]
    rw [hsame] at hstores
    rw [(Effect.store (.inr hd)).execute, hloads.stores_back (transferCount_le d m) hstores]

/-- The index register points at the last but one byte, so two of four registers are stored, and two loaded. -/
theorem dump_load_undo_at_top :
    let d : Instruction := { op := .dump, word := 0xF355, x := 3 }
    let l : Instruction := { op := .load, word := 0xF365, x := 3 }
    let m : Machine := { blank .released (.ofScript #[]) with
      registers := { v := .ofFn fun y => UInt8.ofNat (y + 1), index := 0xFFE } }
    d.op = .dump ∧ l.op = .load ∧ l.x = d.x ∧
      (∃ memory, execute d m = .ok (m.pc + 2) { m with memory := memory } ∧
        memory.cells[0xFFF]? = some 2 ∧ memory.cells[0]? = m.memory.cells[0]? ∧
        execute l { m with memory := memory } = .ok (m.pc + 2) { m with memory := memory }) ∧
      ∃ registers, execute l m = .ok (m.pc + 2) { m with registers := registers } ∧
        m.memory.cells[0xFFF]? = some (registers.read 1) ∧ registers.read 2 = 3 ∧ registers.index = 0xFFE ∧
        execute d { m with registers := registers } = .ok (m.pc + 2) { m with registers := registers } := by
  intro d l m
  obtain ⟨⟨memory, hdump, hs, hundone⟩, registers, hload, hl, hundone'⟩ := dump_load_undo m d l rfl rfl rfl
  have hcount : transferCount d m = 2 := by decide
  rw [hcount] at hs hl
  have hfar : memory.cells[0]? = m.memory.cells[0]? := by
    rw [Vector.getElem?_eq_getElem (by decide), Vector.getElem?_eq_getElem (by decide), hs.kept 0]
    exact fun h => absurd h.1 (by decide)
  exact ⟨rfl, rfl, rfl, ⟨memory, hdump, hs.stored 1 (by decide), hfar, hundone⟩,
    registers, hload, hl.loaded 1 (by decide), hl.kept 2 (by decide), hl.index, hundone'⟩

end Machine
end Chip8
