import Chip8.Proofs.Drawing
import Mathlib.Data.List.Induction

/-! # The display window

The last 256 bytes of the memory mirror the packed screen. Clearing and drawing renew the mirror and a reset empties
both sides; in between, a byte of the window can only differ from its byte of the screen if the program stored there. -/

namespace Chip8

theorem Screen.length_packed (s : Screen) : s.packed.length = 256 := by
  have hrow : ∀ row, (packRow row).length = 8 := fun _ => rfl
  simp only [packed, List.length_flatMap, hrow, List.map_const', List.sum_replicate_nat, Vector.length_toList]

theorem Screen.packed_blank : Screen.blank.packed = List.replicate 256 0 := by decide +kernel

namespace Memory
variable {m : Memory} {a : MemoryAddress} {data : List UInt8} {k : Nat}

/-- A block leaves every byte in front of it and behind it alone. -/
theorem cells_writeBlock_of_outside (hk : k < 4096) (h : ¬ (a ≤ k ∧ k < a + data.length)) :
    (m.writeBlock a data).cells[k] = m.cells[k] := by
  rw [getElem_writeBlock, dite_eq_right_iff]
  intro h'
  omega

theorem cells_writeBlock (m : Memory) {j : Nat} (hj : j < data.length) (h : a.val + j < 4096) :
    (m.writeBlock a data).cells[a.val + j] = data[j] := by
  rw [getElem_writeBlock, dif_pos ⟨Nat.le_add_right _ _, by omega⟩]
  simp only [Nat.add_sub_cancel_left]

theorem cells_writeDisplayBlock (hdata : data.length = 256) (j : Fin 256) :
    (m.writeDisplayBlock data).cells[0xF00 + j.val] = data[j.val] := by
  have htake : data.take displaySize = data := List.take_of_length_le (Nat.le_of_eq hdata)
  rw [writeDisplayBlock, htake]
  exact cells_writeBlock m (by omega) _

theorem length_displayBlock (m : Memory) : m.displayBlock.length = 256 := length_readBlock m displayBase displaySize

theorem getElem_displayBlock (m : Memory) (j : Nat) (hj : j < m.displayBlock.length) (h : 0xF00 + j < 4096) :
    m.displayBlock[j] = m.cells[0xF00 + j] :=
  getElem_readBlock m displayBase displaySize j hj h

/-- Memories that agree from the display window on have the same display window. -/
theorem displayBlock_congr {m' : Memory} (h : ∀ k (hk : k < 4096), 0xF00 ≤ k → m'.cells[k] = m.cells[k]) :
    m'.displayBlock = m.displayBlock := by
  refine List.ext_getElem (by rw [length_displayBlock, length_displayBlock]) fun j hj hj' => ?_
  rw [length_displayBlock] at hj
  rw [getElem_displayBlock m' j _ (by omega), getElem_displayBlock m j _ (by omega)]
  exact h _ _ (Nat.le_add_right _ _)

theorem displayBlock_writeDisplayBlock (hdata : data.length = 256) : (m.writeDisplayBlock data).displayBlock = data := by
  refine List.ext_getElem (by rw [length_displayBlock, hdata]) fun j hj hj' => ?_
  rw [length_displayBlock] at hj
  rw [getElem_displayBlock _ j _ (by omega)]
  exact cells_writeDisplayBlock hdata ⟨j, hj⟩

end Memory

namespace Machine
variable {i : Instruction} {m m' : Machine} {e : Event} {es : List Event} {j : Fin 256} {k : Nat}

/-- Byte `j` of the display window is byte `j` of the packed screen. -/
def MirroredAt (m : Machine) (j : Fin 256) : Prop :=
  m.screen.packed[j.val]? = some m.memory.cells[0xF00 + j.val]

/-- The event makes the display window a copy of the screen again. -/
def Refreshes (m : Machine) (e : Event) : Prop := e = .reset ∨ Draws m e

theorem mirroredAt_writeDisplayBlock (h : m.memory = m'.memory.writeDisplayBlock m.screen.packed) (j : Fin 256) :
    m.MirroredAt j := by
  have hlen := m.screen.length_packed
  rw [MirroredAt, h, Memory.cells_writeDisplayBlock hlen]
  exact List.getElem?_eq_getElem _

theorem mirroredAt_reset (m : Machine) (j : Fin 256) : m.reset.MirroredAt j := by
  have hcells : m.reset.memory.cells[0xF00 + j.val] = 0 := by
    have hfont : ¬ (Font.base.val ≤ 0xF00 + j.val ∧ 0xF00 + j.val < Font.base.val + Font.sprites.length) := by
      rw [show Font.base.val = 0x50 from rfl, show Font.sprites.length = 80 from rfl]; omega
    rw [show m.reset.memory = Memory.blank.writeBlock Font.base Font.sprites from rfl,
      Memory.cells_writeBlock_of_outside (by omega) hfont]
    exact Vector.getElem_replicate ..
  rw [MirroredAt, hcells, show m.reset.screen.packed = Screen.blank.packed from rfl, Screen.packed_blank,
    List.getElem?_replicate_of_lt j.isLt]

theorem memory_stepped (h : ¬ Draws m .step) (hk : k < 4096) (hs : ¬ StoresAt k m .step) :
    m.stepped.memory.cells[k] = m.memory.cells[k] := by
  refine stepped_cases m rfl (fun _ => rfl) fun i a m' hi he => ?_
  show m'.memory.cells[k] = _
  rw [he.memory_eq fun hop => h ⟨rfl, i, hi, hop⟩]
  refine Memory.cells_writeBlock_of_outside hk fun hmem => hs ⟨rfl, i, hi, ?_⟩
  rwa [length_storedBytes] at hmem

/-- A program is put between its start and the display window. -/
theorem memory_load_outside (m : Machine) (rom : List UInt8) (hk : k < 4096) (h : k < 0x200 ∨ 0xF00 ≤ k) :
    (m.load rom).2.memory.cells[k] = m.memory.cells[k] := by
  obtain ⟨notices, hload⟩ := m.exists_load_eq rom
  rw [hload]
  refine Memory.cells_writeBlock_of_outside hk ?_
  rw [List.length_take, show programStart.val = 0x200 from rfl, show programSpace = 0xD00 from rfl]
  omega

/-- A program reaches no byte from the display window on. -/
theorem memory_load (m : Machine) (rom : List UInt8) (hk : k < 4096) (h : 0xF00 ≤ k) :
    (m.load rom).2.memory.cells[k] = m.memory.cells[k] :=
  memory_load_outside m rom hk (.inr h)

theorem memory_handle (hr : ¬ Refreshes m e) (hk : k < 4096) (h : 0xF00 ≤ k) (hs : ¬ StoresAt k m e) :
    (m.handle e).memory.cells[k] = m.memory.cells[k] := by
  rw [Refreshes, not_or] at hr
  cases e with
  | load rom => exact memory_load m rom hk h
  | step => exact memory_stepped hr.2 hk hs
  | reset => exact absurd rfl hr.1
  | _ => rfl

theorem MirroredAt.handle (h : m.MirroredAt j) (hr : ¬ Refreshes m e) (hs : ¬ StoresAt (0xF00 + j) m e) :
    (m.handle e).MirroredAt j := by
  have hrows : (m.handle e).screen.packed = m.screen.packed := by
    rw [Refreshes, not_or] at hr
    rw [Screen.packed, rows_handle hr.2 hr.1]
    rfl
  rw [MirroredAt, hrows, memory_handle hr (by omega) (Nat.le_add_right _ _) hs]
  exact h

theorem mirroredAt_of_refreshes (h : Refreshes m e) (j : Fin 256) : (m.handle e).MirroredAt j := by
  rcases h with rfl | h
  · exact mirroredAt_reset m j
  · obtain rfl := h.1
    exact mirroredAt_writeDisplayBlock (stepped_of_draws h).2 j

/-- A byte that is mirrored at first stays so until the program stores at its address. -/
theorem mirroredAt_after (h : m.MirroredAt j) (hs : ¬ Since (StoresAt (0xF00 + j)) Refreshes m es) :
    (m.after es).MirroredAt j := by
  induction es using List.reverseRecOn with
  | nil => exact h
  | append_singleton es e ih =>
    rw [since_concat, not_or, not_and_or, not_not] at hs
    obtain ⟨hstore, hr⟩ := hs
    rw [after_concat]
    by_cases hr' : Refreshes (m.after es) e
    · exact mirroredAt_of_refreshes hr' j
    · exact (ih (hr.resolve_left hr')).handle hr' hstore

theorem draws_of_step (h : m.step = .ok (some i) m') (hop : i.op = .cls ∨ i.op = .drw) : Draws m .step :=
  ⟨rfl, i, ((step_eq_ok.mp h).answer).symm, hop⟩

/-- A completed step that neither writes the screen nor stores leaves both sides of the mirror alone. -/
theorem window_step {r : Option Instruction} (h : m.step = .ok r m')
    (hop : ∀ i, r = some i → i.op ∉ [Op.cls, .drw, .dump, .ldbcd]) :
    m'.memory.displayBlock = m.memory.displayBlock ∧ m'.screen.packed = m.screen.packed := by
  have hs := step_eq_ok.mp h
  have hfetched (i : Instruction) (hi : m.fetched = some i) : i.op ∉ [Op.cls, .drw, .dump, .ldbcd] :=
    hop i (hs.answer.trans hi)
  have hd : ¬ Draws m .step := fun ⟨_, i, hi, hdraw⟩ => hfetched i hi (by rcases hdraw with h | h <;> simp [h])
  have hst (k : Nat) : ¬ StoresAt k m .step := by
    rintro ⟨-, i, hi, hle, hlt⟩
    have hne := hfetched i hi
    simp only [List.mem_cons, List.not_mem_nil, or_false, not_or] at hne
    have hcount : storeCount i = 0 := by
      rw [← length_storedBytes i m, storedBytes_eq_nil (by simp [hne])]
      rfl
    omega
  rw [← hs.stepped, screen_stepped hd]
  exact ⟨Memory.displayBlock_congr fun k hk _ => memory_stepped hd hk (hst k), rfl⟩

/-- In every history of a new machine, a byte of the display window is its byte of the packed screen unless the
program stored at its address after the last step that cleared or drew and the last reset. A completed step that
clears or draws makes the window and the packed screen equal; loading a program and all other steps that do not store
change neither. -/
theorem display_window_mirrors_screen (keypad : Keypad) (random : RandomSource) :
    (∀ es (j : Fin 256), ¬ Since (StoresAt (0xF00 + j)) Refreshes (new keypad random) es →
      ((new keypad random).after es).MirroredAt j) ∧
    (∀ (m : Machine) i m', m.step = .ok (some i) m' → i.op = .cls ∨ i.op = .drw →
      m'.memory.displayBlock = m'.screen.packed) ∧
    (∀ (m : Machine) rom, (m.load rom).2.memory.displayBlock = m.memory.displayBlock ∧
      (m.load rom).2.screen = m.screen) ∧
    ∀ (m : Machine) r m', m.step = .ok r m' → (∀ i, r = some i → i.op ∉ [Op.cls, .drw, .dump, .ldbcd]) →
      m'.memory.displayBlock = m.memory.displayBlock ∧ m'.screen.packed = m.screen.packed := by
  refine ⟨fun es j => mirroredAt_after (mirroredAt_reset _ j), fun m i m' h hop => ?_, fun m rom => ?_,
    fun m r m' => window_step⟩
  · have hmem := (stepped_of_draws (draws_of_step h hop)).2
    rw [(step_eq_ok.mp h).stepped] at hmem
    rw [hmem, Memory.displayBlock_writeDisplayBlock m'.screen.length_packed]
  · exact ⟨Memory.displayBlock_congr fun k hk hle => memory_load m rom hk hle, screen_load m rom⟩

end Machine
end Chip8
