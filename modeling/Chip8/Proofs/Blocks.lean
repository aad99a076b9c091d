import Chip8.Proofs.DisplayWindow
import Chip8.Proofs.Requests

/-! # Blocks of memory

A block begins at an address, which wraps, and ends with the memory at the latest. Writing one changes the bytes that lie
in it (`InBlock`) and no others, and reading one answers with them in order; so what was written is read again, blocks
that have no byte in common are written in either order, and a word is a block of two bytes as long as it does not wrap. -/

namespace Chip8

/-- The number that bytes stand for, the highest one first. -/
def bigEndian (bytes : List UInt8) : Nat := bytes.foldl (fun n b => n * 256 + b.toNat) 0

namespace Memory
variable {m m' : Memory} {a b : MemoryAddress} {length : Int} {data data' : List UInt8} {k : Nat}

/-- The byte at `k` is one of the `n` from `a` on. -/
def InBlock (a : MemoryAddress) (n k : Nat) : Prop := a.val ≤ k ∧ k < min (a.val + n) 4096

theorem room_eq (a : MemoryAddress) (length : Int) : (room a length : Int) = min (max length 0) (4096 - a.val) := by
  unfold room
  omega

theorem room_length (a : MemoryAddress) (data : List UInt8) : room a data.length = min data.length (4096 - a.val) := by
  unfold room
  omega

/-! ### Writing -/

theorem cells_writeBlock_of_not_inBlock (hk : k < 4096) (h : ¬ InBlock a data.length k) :
    (m.writeBlock a data).cells[k] = m.cells[k] := by
  refine cells_writeBlock_of_outside hk fun hmem => h ?_
  unfold InBlock
  omega

/-- A block hides the bytes it is written over. -/
theorem cells_writeBlock_congr (hk : k < 4096) (h : ¬ InBlock a data.length k → m'.cells[k] = m.cells[k]) :
    (m'.writeBlock a data).cells[k] = (m.writeBlock a data).cells[k] := by
  rw [getElem_writeBlock, getElem_writeBlock]
  split
  · rfl
  · rename_i hmem
    refine h fun hin => hmem ?_
    unfold InBlock at hin
    omega

theorem writeBlock_comm (m : Memory) (h : ∀ k, ¬ (InBlock a data.length k ∧ InBlock b data'.length k)) :
    (m.writeBlock a data).writeBlock b data' = (m.writeBlock b data').writeBlock a data := by
  rw [Memory.mk.injEq]
  refine Vector.ext fun k hk => ?_
  -- A byte of the second block is not one of the first, so it does not matter which of the two is written last.
  by_cases hb : InBlock b data'.length k
  · have ha : ¬ InBlock a data.length k := fun ha => h k ⟨ha, hb⟩
    calc ((m.writeBlock a data).writeBlock b data').cells[k]
      _ = (m.writeBlock b data').cells[k] := cells_writeBlock_congr hk fun hb' => absurd hb hb'
      _ = ((m.writeBlock b data').writeBlock a data).cells[k] := (cells_writeBlock_of_not_inBlock hk ha).symm
  · calc ((m.writeBlock a data).writeBlock b data').cells[k]
      _ = (m.writeBlock a data).cells[k] := cells_writeBlock_of_not_inBlock hk hb
      _ = ((m.writeBlock b data').writeBlock a data).cells[k] :=
        cells_writeBlock_congr hk fun _ => (cells_writeBlock_of_not_inBlock hk hb).symm

/-! ### Reading -/

theorem readBlock_eq_take (m : Memory) (a : MemoryAddress) (length : Int) :
    m.readBlock a length = (m.cells.toList.drop a.val).take (room a length) := by
  have hle := add_room_le a length
  refine List.ext_getElem ?_ fun j hj hj' => ?_
  · rw [length_readBlock, List.length_take, List.length_drop, Vector.length_toList]
    omega
  · rw [length_readBlock] at hj
    rw [getElem_readBlock m a length j _ (by omega), List.getElem_take, List.getElem_drop, Vector.getElem_toList]

/-- What was written is read again, as far as there was room for it. -/
theorem readBlock_writeBlock (m : Memory) (a : MemoryAddress) (data : List UInt8) :
    (m.writeBlock a data).readBlock a data.length = data.take (room a data.length) := by
  have hroom := room_length a data
  refine List.ext_getElem ?_ fun j hj hj' => ?_
  · rw [length_readBlock, List.length_take]
    omega
  · rw [length_readBlock] at hj
    have h : a.val + j < 4096 := by omega
    rw [getElem_readBlock _ _ _ j _ h, cells_writeBlock m (by omega) h, List.getElem_take]

theorem readBlock_two (m : Memory) (h : a.val + 1 < 4096) : m.readBlock a 2 = [m.cells[a.val], m.cells[a.val + 1]] := by
  have hroom : room a 2 = 2 := by
    unfold room
    omega
  refine List.ext_getElem (by rw [length_readBlock, hroom]; rfl) fun j hj _ => ?_
  rw [length_readBlock, hroom] at hj
  rw [getElem_readBlock m a 2 j _ (by omega)]
  rcases j with _ | _ | j
  · rfl
  · rfl
  · omega

/-- A word is a block of two bytes, but the one at the last address goes on with the first byte. -/
theorem readWord_eq (m : Memory) (a : MemoryAddress) : m.readWord a =
    if a = 0xFFF then m.cells[0xFFF].toNat * 256 + m.cells[0].toNat else bigEndian (m.readBlock a 2) := by
  split
  · rename_i h
    subst h
    rfl
  · rename_i h
    have hne : a.val ≠ 0xFFF := fun heq => h (Fin.ext heq)
    have hlt : a.val + 1 < 4096 := by omega
    have hnext : (a + 1).val = a.val + 1 := by
      rw [Fin.val_add, show (1 : MemoryAddress).val = 1 from rfl]
      omega
    rw [readBlock_two m hlt]
    simp [bigEndian, readWord, read, hnext]

end Memory

open Memory in
/-- A block may begin at any integer `s` or at the address it is reduced to. Writing one tells how many of its bytes lie in
memory, stores these and changes nothing else; reading one answers with the bytes that are there. -/
theorem blocks_end_with_memory (s : Int) (v : Operand) (hv : v = .int s ∨ v = .address (MemoryAddress.ofInt s).address) :
    ∃ a : MemoryAddress, v.toMemoryAddress = .ok a ∧ (a.val : Int) = s % 4096 ∧
      (∀ (m : Machine) (data : List UInt8), ∃ memory : Memory,
        (Request.writeBlock v data).perform m = .ok (.count (min data.length (4096 - a.val))) { m with memory := memory } ∧
        memory.cells.toList.length = 4096 ∧
        (∀ j (_ : j < data.length) (_ : a.val + j < 4096), memory.cells[a.val + j] = data[j]) ∧
        (∀ k (_ : k < 4096), ¬ InBlock a data.length k → memory.cells[k] = m.memory.cells[k]) ∧
        memory.readBlock a data.length = data.take (min data.length (4096 - a.val))) ∧
      (∀ (m : Memory) (length : Int), m.readBlock a length =
        (m.cells.toList.drop a.val).take (min (max length 0) (4096 - a.val)).toNat) ∧
      (∀ (m : Memory) b (data data' : List UInt8), (∀ k, ¬ (InBlock a data.length k ∧ InBlock b data'.length k)) →
        (m.writeBlock a data).writeBlock b data' = (m.writeBlock b data').writeBlock a data) ∧
      ∀ m : Memory, m.readWord a =
        if a = 0xFFF then m.cells[0xFFF].toNat * 256 + m.cells[0].toNat else bigEndian (m.readBlock a 2) := by
  have hstart : v.toMemoryAddress = .ok (MemoryAddress.ofInt s) := by
    rcases hv with rfl | rfl
    · rfl
    · exact MemoryAddress.toMemoryAddress_address _
  refine ⟨MemoryAddress.ofInt s, hstart, MemoryAddress.val_ofInt s, fun m data => ?_, fun m length => ?_,
    fun m b data data' => writeBlock_comm m, fun m => readWord_eq m _⟩
  · generalize MemoryAddress.ofInt s = a at hstart
    refine ⟨m.memory.writeBlock a data, ?_, Vector.length_toList, fun j hj h => cells_writeBlock _ hj h,
      fun k hk h => cells_writeBlock_of_not_inBlock hk h, ?_⟩
    · rw [Request.perform, hstart, ← room_length]
      rfl
    · rw [readBlock_writeBlock, room_length]
  · rw [readBlock_eq_take, ← room_eq]
    rfl

open Memory in
/-- Three bytes at -2 are the last two of the memory and one that is dropped, so they do not meet a block at 0. -/
theorem blocks_end_with_memory_at_top :
    let m := Machine.new .released (.ofScript #[])
    let top : MemoryAddress := 0xFFE
    (∃ memory : Memory, (Request.writeBlock (.int (-2)) [1, 2, 3]).perform m = .ok (.count 2) { m with memory := memory } ∧
      memory.cells[0xFFE] = 1 ∧ memory.cells[0xFFF] = 2 ∧ memory.cells[0] = 0 ∧ memory.readBlock top 3 = [1, 2]) ∧
    (∀ k, ¬ (InBlock top 3 k ∧ InBlock 0 1 k)) ∧
    (m.memory.writeBlock top [1, 2, 3]).writeBlock 0 [9] = (m.memory.writeBlock 0 [9]).writeBlock top [1, 2, 3] := by
  intro m top
  obtain ⟨a, ha, -, hwrite, -, hcomm, -⟩ := blocks_end_with_memory (-2) (.int (-2)) (.inl rfl)
  obtain rfl : top = a := Except.ok.inj ha
  obtain ⟨memory, hperform, -, hin, hout, hread⟩ := hwrite m [1, 2, 3]
  have hapart : ∀ k, ¬ (InBlock top 3 k ∧ InBlock 0 1 k) := by
    rintro k ⟨⟨hle, -⟩, -, hlt⟩
    have htop : top.val = 0xFFE := rfl
    change k < 1 at hlt
    omega
  have hzero : ¬ InBlock top 3 0 := fun h => absurd h.1 (by decide)
  have hroom : min ([1, 2, 3] : List UInt8).length (4096 - top.val) = 2 := by decide
  rw [hroom] at hperform hread
  refine ⟨⟨memory, hperform, hin 0 (by decide) (by decide), hin 1 (by decide) (by decide), ?_, hread⟩, hapart,
    hcomm m.memory 0 [1, 2, 3] [9] hapart⟩
  rw [hout 0 (by decide) hzero]
  decide +kernel

end Chip8
