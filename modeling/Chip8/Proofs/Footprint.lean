import Chip8.Proofs.DisplayWindow
import Chip8.Proofs.FrameReport
import Mathlib.Algebra.Group.Nat.Defs

/-! # What a step leaves alone

`Footprint m r m'` says for each component of the machine which operations can change it, and where. A component that an
instruction does not name stays (`Effect.…_eq`); with that, the font stays in memory until a program stores over it, so a
digit's address is the address of its sprite. -/

namespace Chip8

/-- The operations that store in the first register that they name. -/
def Op.intoFirst : List Op := alu ++ [.rnd, .lddt, .ldk]

/-- What stores in the register `x` has an `x` in its format: no register is named by default. -/
theorem Format.layout_of_intoFirst :
    ∀ f ∈ table, f.op ∈ .load :: Op.intoFirst → f.layout ∈ [.immediate, .pair, .single] := by decide

/-- The operations that store a flag. -/
def Op.flagging : List Op := [radd, rsub, rsubn, shr, shl, drw]

namespace Registers
variable {r r' : Registers} {i : Instruction} {x y : RegisterIndex}

theorem read_put_self (r : Registers) (x : RegisterIndex) (b : UInt8) : (r.put x b).read x = b := by
  rw [read_put, if_pos rfl]

theorem read_put_of_ne (h : x ≠ y) (b : UInt8) : (r.put x b).read y = r.read y := by
  rw [read_put, if_neg h]

theorem read_setFlag (r : Registers) (b : Bool) : (r.setFlag b).read flag = if b then 1 else 0 := by
  rw [setFlag, read_put_self]

theorem read_setFlag_of_ne (h : y ≠ flag) (b : Bool) : (r.setFlag b).read y = r.read y :=
  read_put_of_ne (Ne.symm h) _

/-- Stores from the first register on leave the registers behind the last byte alone. -/
theorem read_fill_of_le {bytes : List UInt8} (h : bytes.length ≤ y) : (r.fill bytes).read y = r.read y := by
  simp only [read, fill, Fin.getElem_fin, getElem_overlay]
  rw [dif_neg]
  omega

/-- An arithmetic operation stores a byte in the first register it names, and then perhaps a flag. -/
theorem alu_cases (h : alu i r = .ok () r') :
    ∃ b, r' = r.put i.x b ∨ i.op ∈ Op.flagging ∧ ∃ c, r' = (r.put i.x b).setFlag c := by
  obtain ⟨op, word, x, y, addr, byte, nibble⟩ := i
  cases op <;> cases h
  case radd | rsub | rsubn | shr | shl => exact ⟨_, .inr ⟨by simp [Op.flagging], _, rfl⟩⟩
  all_goals exact ⟨_, .inl rfl⟩

end Registers

namespace Machine
variable {i : Instruction} {m m' : Machine} {a : MemoryAddress} {r : Option Instruction} {k : Nat}

namespace Effect

theorem index_eq (h : Effect i m a m') (hop : i.op ∉ [.ldi, .addi, .ldfi]) : m'.registers.index = m.registers.index := by
  cases h with
  | alu _ hr =>
    obtain ⟨b, rfl | ⟨-, c, rfl⟩⟩ := Registers.alu_cases hr
    · rfl
    · rfl
  | ldi h | addi h | ldfi h => simp [h] at hop
  | _ => rfl

/-- A register changes only where an operation stores in the first register it names, or a flag, or loads registers. -/
theorem read_eq {y : RegisterIndex} (h : Effect i m a m') (hx : ¬ (i.op ∈ Op.intoFirst ∧ y = i.x))
    (hf : ¬ (i.op ∈ Op.flagging ∧ y = Registers.flag)) (hload : ¬ (i.op = .load ∧ y ≤ i.x)) :
    m'.registers.read y = m.registers.read y := by
  have hput (b : UInt8) (hop : i.op ∈ Op.intoFirst) : (m.registers.put i.x b).read y = m.registers.read y :=
    Registers.read_put_of_ne (fun heq => hx ⟨hop, heq.symm⟩) b
  cases h with
  | alu hop hr =>
    have hfirst : i.op ∈ Op.intoFirst := List.mem_append_left _ hop
    obtain ⟨b, rfl | ⟨hflag, c, rfl⟩⟩ := Registers.alu_cases hr
    · exact hput b hfirst
    · exact (Registers.read_setFlag_of_ne (fun heq => hf ⟨hflag, heq⟩) c).trans (hput b hfirst)
  | load hop =>
    have hlt : i.x.val < y.val := Nat.lt_of_not_le fun hle => hload ⟨hop, hle⟩
    refine Registers.read_fill_of_le ?_
    rw [Memory.length_readBlock, Memory.room]
    omega
  | lddt hop | rnd hop | keyTaken hop => exact hput _ (by rw [hop]; decide)
  | drw hop => exact Registers.read_setFlag_of_ne (fun heq => hf ⟨by rw [hop]; decide, heq⟩) _
  | _ => rfl

theorem stack_eq (h : Effect i m a m') (hop : i.op ∉ [.call, .ret]) : m'.stack = m.stack := by
  cases h with
  | call h | ret h => simp [h] at hop
  | _ => rfl

theorem delay_eq (h : Effect i m a m') (hop : i.op ≠ .setdt) : m'.timers.delay = m.timers.delay := by
  cases h with
  | setdt h => exact absurd h hop
  | _ => rfl

theorem sound_eq (h : Effect i m a m') (hop : i.op ≠ .setst) : m'.timers.sound = m.timers.sound := by
  cases h with
  | setst h => exact absurd h hop
  | _ => rfl

theorem waiting_eq (h : Effect i m a m') (hop : i.op ≠ .ldk) : m'.waiting = m.waiting := by
  cases h with
  | keyTaken h | keyAwaited h => exact absurd h hop
  | _ => rfl

theorem keypad_eq (h : Effect i m a m') : m'.keypad = m.keypad := by
  cases h <;> rfl

/-- A byte stays unless the instruction stores at it, or it is in the display window and the screen is copied there. -/
theorem cell_eq (h : Effect i m a m') (hk : k < 4096)
    (hs : ¬ (m.registers.index.val ≤ k ∧ k < m.registers.index.val + storeCount i))
    (hd : ¬ ((i.op = .cls ∨ i.op = .drw) ∧ 0xF00 ≤ k)) : m'.memory.cells[k] = m.memory.cells[k] := by
  by_cases hop : i.op = .cls ∨ i.op = .drw
  · have hlt : k < 0xF00 := Nat.lt_of_not_le fun h => hd ⟨hop, h⟩
    rw [(h.of_draws hop).2, Memory.writeDisplayBlock]
    refine Memory.cells_writeBlock_of_outside hk fun hmem => ?_
    rw [show Memory.displayBase.val = 0xF00 from rfl] at hmem
    omega
  · rw [h.memory_eq hop]
    refine Memory.cells_writeBlock_of_outside hk fun hmem => hs ?_
    rwa [length_storedBytes] at hmem

/-- A stored byte is where it belongs if the memory reaches that far. -/
theorem cell_stored (h : Effect i m a m') (hop : i.op = .ldbcd ∨ i.op = .dump) {j : Nat} (hj : j < (storedBytes i m).length)
    (hk : m.registers.index.val + j < 4096) : m'.memory.cells[m.registers.index.val + j] = (storedBytes i m)[j] := by
  obtain ⟨-, rfl⟩ := h.unique (.store hop)
  exact Memory.cells_writeBlock _ hj hk

end Effect

theorem getElem_decimalDigits (b : UInt8) (j : Nat) (hj : j < (decimalDigits b).length) :
    (decimalDigits b)[j].toNat = b.toNat / 10 ^ (2 - j) % 10 := by
  have hb := b.toNat_lt
  have hlen : (decimalDigits b).length = 3 := rfl
  rcases j with _ | _ | _ | j
  · show (b / 100).toNat = b.toNat / 100 % 10
    rw [UInt8.toNat_div]
    show b.toNat / 100 = b.toNat / 100 % 10
    omega
  · show (b / 10 % 10).toNat = b.toNat / 10 % 10
    rw [UInt8.toNat_mod, UInt8.toNat_div]
    rfl
  · show (b % 10).toNat = b.toNat / 1 % 10
    rw [UInt8.toNat_mod, Nat.div_one]
    rfl
  · omega

theorem getElem_storedBytes (hop : i.op = .dump) {j : RegisterIndex} (hj : j.val < (storedBytes i m).length) :
    (storedBytes i m)[j.val] = m.registers.read j := by
  simp only [storedBytes, hop, List.getElem_take, Vector.getElem_toList]
  rfl

/-- Which operations change which component of the machine in a completed step, and where. -/
structure Footprint (m : Machine) (r : Option Instruction) (m' : Machine) : Prop where
  memory : ∀ k (_ : k < 4096), m'.memory.cells[k] ≠ m.memory.cells[k] → ∃ i, r = some i ∧
    (i.op = .ldbcd ∧ m.registers.index.val ≤ k ∧ k < m.registers.index.val + 3 ∨
      i.op = .dump ∧ m.registers.index.val ≤ k ∧ k < m.registers.index.val + (i.x.val + 1) ∨
      (i.op = .cls ∨ i.op = .drw) ∧ 0xF00 ≤ k)
  digits : ∀ i, r = some i → i.op = .ldbcd → ∀ j < 3, ∀ _ : m.registers.index.val + j < 4096,
    m'.memory.cells[m.registers.index.val + j].toNat = (m.registers.read i.x).toNat / 10 ^ (2 - j) % 10
  dumped : ∀ i, r = some i → i.op = .dump → ∀ j ≤ i.x, ∀ _ : m.registers.index.val + j.val < 4096,
    m'.memory.cells[m.registers.index.val + j.val] = m.registers.read j
  registers : ∀ y, m'.registers.read y ≠ m.registers.read y → ∃ i, r = some i ∧
    (i.op ∈ Op.intoFirst ∧ y = i.x ∨ i.op ∈ Op.flagging ∧ y = Registers.flag ∨ i.op = .load ∧ y ≤ i.x)
  flag : m'.registers.read Registers.flag ≠ m.registers.read Registers.flag → ∃ i, r = some i ∧
    (i.op ∈ .load :: Op.intoFirst ∧ i.x = Registers.flag ∨ i.op ∈ Op.flagging)
  index : m'.registers.index ≠ m.registers.index → ∃ i, r = some i ∧ i.op ∈ [.ldi, .addi, .ldfi]
  stack : m'.stack ≠ m.stack → ∃ i, r = some i ∧ i.op ∈ [.call, .ret]
  pixels : m'.screen.rows ≠ m.screen.rows → ∃ i, r = some i ∧ (i.op = .cls ∨ i.op = .drw)
  delay : m'.timers.delay ≠ m.timers.delay → ∃ i, r = some i ∧ i.op = .setdt
  sound : m'.timers.sound ≠ m.timers.sound → ∃ i, r = some i ∧ i.op = .setst
  waiting : m'.waiting ≠ m.waiting → ∃ i, r = some i ∧ i.op = .ldk
  keypad : m'.keypad = m.keypad

/-- What a step changes is changed by the effect of the instruction that it executes. -/
theorem Step.changed_by {α : Type} {f : Machine → α} {P : Instruction → Prop} (h : Step m r m') (hne : f m' ≠ f m)
    (hskip : ∀ u, f (countStep none (skipUnrecognized u m)) = f m)
    (heff : ∀ i a m₁, Effect i m a m₁ → ¬ P i → f (countStep (some i.op) { m₁ with pc := a }) = f m) :
    ∃ i, r = some i ∧ P i := by
  cases h with
  | unrecognized => exact absurd (hskip _) hne
  | executed _ he => exact ⟨_, rfl, Classical.byContradiction fun hP => hne (heff _ _ _ he hP)⟩

theorem Step.effect_of_some (h : Step m r m') (hr : r = some i) :
    ∃ a m₁, Effect i m a m₁ ∧ m'.memory = m₁.memory := by
  cases h with
  | unrecognized => cases hr
  | executed _ he =>
    cases hr
    exact ⟨_, _, he, rfl⟩

theorem Step.footprint (h : Step m r m') : Footprint m r m' where
  memory k hk hne := by
    refine h.changed_by (f := fun m => m.memory.cells[k]) hne (fun _ => rfl) fun i a m₁ he hP => ?_
    simp only [not_or] at hP
    refine he.cell_eq hk (fun hs => ?_) hP.2.2
    unfold storeCount at hs
    split at hs
    · exact hP.1 ⟨‹_›, hs⟩
    · exact hP.2.1 ⟨‹_›, hs⟩
    · omega
  digits i hr hop j hj hk := by
    obtain ⟨a, m₁, he, hm⟩ := h.effect_of_some hr
    have hlen : j < (storedBytes i m).length := by rw [length_storedBytes, storeCount, hop]; exact hj
    have hcell := he.cell_stored (.inl hop) hlen hk
    simp only [hm, hcell, storedBytes, hop]
    exact getElem_decimalDigits _ _ hj
  dumped i hr hop j hj hk := by
    obtain ⟨a, m₁, he, hm⟩ := h.effect_of_some hr
    have hlen : j.val < (storedBytes i m).length := by
      rw [length_storedBytes, storeCount, hop]
      exact Nat.lt_succ_of_le hj
    have hcell := he.cell_stored (.inr hop) hlen hk
    simp only [hm, hcell, getElem_storedBytes hop]
  registers y hne := by
    refine h.changed_by (f := fun m => m.registers.read y) hne (fun _ => rfl) fun i a m₁ he hP => ?_
    rw [not_or, not_or] at hP
    exact he.read_eq hP.1 hP.2.1 hP.2.2
  flag hne := by
    refine h.changed_by (f := fun m => m.registers.read Registers.flag) hne (fun _ => rfl) fun i a m₁ he hP => ?_
    rw [not_or] at hP
    -- No register comes after the flag, so only a load of all registers reaches it.
    refine he.read_eq (fun hx => hP.1 ⟨List.mem_cons_of_mem _ hx.1, hx.2.symm⟩) (fun hf => hP.2 hf.1) fun hload => hP.1 ?_
    exact ⟨hload.1 ▸ List.mem_cons_self .., Fin.le_antisymm (Fin.le_last _) hload.2⟩
  index hne := h.changed_by (f := fun m => m.registers.index) hne (fun _ => rfl) fun _ _ _ he => he.index_eq
  stack hne := h.changed_by (f := fun m => m.stack) hne (fun _ => rfl) fun _ _ _ he => he.stack_eq
  pixels hne := h.changed_by (f := fun m => m.screen.rows) hne (fun _ => rfl) fun _ _ _ he hP =>
    congrArg Screen.rows (he.screen_eq hP)
  delay hne := h.changed_by (f := fun m => m.timers.delay) hne (fun _ => rfl) fun _ _ _ he => he.delay_eq
  sound hne := h.changed_by (f := fun m => m.timers.sound) hne (fun _ => rfl) fun _ _ _ he => he.sound_eq
  waiting hne := h.changed_by (f := fun m => m.waiting) hne (fun _ => rfl) fun _ _ _ he => he.waiting_eq
  keypad := by
    cases h with
    | unrecognized => rfl
    | executed _ he => exact he.keypad_eq

/-! ### The font -/

/-- Byte `j` of the font is in memory. -/
def HasFontByte (m : Machine) (j : Fin 80) : Prop := Font.sprites[j.val]? = some m.memory.cells[0x050 + j.val]

end Machine

/-- The rows of a digit's sprite. -/
def Font.sprite (digit : Nat) : List UInt8 := (sprites.drop (height * digit)).take height

namespace Machine
variable {m : Machine} {i : Instruction} {es : List Event} {e : Event} {j : Fin 80}

theorem hasFontByte_reset (m : Machine) (j : Fin 80) : m.reset.HasFontByte j := by
  have hlen : Font.sprites.length = 80 := rfl
  have hcell : m.reset.memory.cells[0x050 + j.val] = Font.sprites[j.val] := Memory.cells_writeBlock (a := Font.base) _ _ _
  rw [HasFontByte, hcell]
  exact List.getElem?_eq_getElem _

/-- The font is out of reach of programs that are loaded, of the display window and of every step that does not store
there. -/
theorem HasFontByte.handle (h : m.HasFontByte j) (hr : e ≠ .reset) (hs : ¬ StoresAt (0x050 + j) m e) :
    (m.handle e).HasFontByte j := by
  have hk : 0x050 + j.val < 4096 := by omega
  have hcell : (m.handle e).memory.cells[0x050 + j.val] = m.memory.cells[0x050 + j.val] := by
    cases e with
    | load rom => exact memory_load_outside m rom hk (.inl (by omega))
    | step =>
      refine stepped_cases (motive := fun m' => m'.memory.cells[0x050 + j.val] = m.memory.cells[0x050 + j.val]) m rfl
        (fun _ => rfl) fun i a m₁ hi he => ?_
      refine he.cell_eq hk (fun hmem => hs ⟨rfl, i, hi, hmem⟩) fun hd => ?_
      omega
    | reset => exact absurd rfl hr
    | _ => rfl
  rw [HasFontByte, hcell]
  exact h

/-- A byte of the font stays in memory until a program stores at its address. -/
theorem hasFontByte_after (hs : ¬ Since (StoresAt (0x050 + j)) Resets m.reset es) : (m.reset.after es).HasFontByte j := by
  induction es using List.reverseRecOn with
  | nil => exact hasFontByte_reset m j
  | append_singleton es e ih =>
    rw [since_concat, not_or, not_and_or, not_not] at hs
    obtain ⟨hstore, hr⟩ := hs
    rw [after_concat]
    by_cases he : e = .reset
    · subst he
      exact hasFontByte_reset _ j
    · exact (ih (hr.resolve_left he)).handle he hstore

theorem readBlock_sprite (hfont : ∀ j, m.HasFontByte j) {d : Nat} (hd : d < 16) {a : MemoryAddress}
    (ha : a.val = 0x050 + 5 * d) : m.memory.readBlock a Font.height = Font.sprite d := by
  have hsprites : Font.sprites.length = 80 := rfl
  have hroom : Memory.room a Font.height = 5 := by
    rw [Memory.room, ha, show ((Font.height : Int)).toNat = 5 from rfl]
    omega
  refine List.ext_getElem ?_ fun j hj hj' => ?_
  · rw [Memory.length_readBlock, hroom, Font.sprite, List.length_take, List.length_drop, hsprites,
      show Font.height = 5 from rfl]
    omega
  · rw [Memory.length_readBlock, hroom] at hj
    have hbyte := hfont ⟨5 * d + j, by omega⟩
    rw [HasFontByte, List.getElem?_eq_getElem (by omega), Option.some_inj] at hbyte
    rw [Memory.getElem_readBlock _ _ _ _ _ (by omega)]
    simp only [Font.sprite, List.getElem_take, List.getElem_drop, ha, show Font.height = 5 from rfl, Nat.add_assoc]
    exact hbyte.symm

theorem val_ofInt_fontAddress (n : Int) :
    (MemoryAddress.ofInt (Font.address n)).val = 0x050 + 5 * (n % 16).toNat := by
  have hval := MemoryAddress.val_ofInt (Font.address n)
  have haddr : Font.address n = 0x050 + 5 * (n % 16).toNat := rfl
  omega

/-- A completed step changes no more than its footprint, whose registers are ones that the instruction names. In a history after
a reset, as long as no program stored over the font since the last reset, an instruction for the sprite of a digit completes
and leaves the index register at it. -/
theorem step_footprint :
    (∀ (m : Machine) r m', m.step = .ok r m' → Footprint m r m') ∧
    (∀ f ∈ Format.table, f.op ∈ .load :: Op.intoFirst → f.layout ∈ [.immediate, .pair, .single]) ∧
    ∀ (m : Machine) es, (∀ k, 0x050 ≤ k → k < 0x0A0 → ¬ Since (StoresAt k) Resets m.reset es) →
      ∀ i, (m.reset.after es).fetched = some i → i.op = .ldfi →
        ∃ m', (m.reset.after es).step = .ok (some i) m' ∧
          m'.memory.readBlock m'.registers.index Font.height =
            Font.sprite (((m.reset.after es).registers.read i.x).toNat % 16) := by
  refine ⟨fun m r m' h => (step_eq_ok.mp h).footprint, Format.layout_of_intoFirst, fun m es hs i hi hop => ?_⟩
  have hfont : ∀ j, (m.reset.after es).HasFontByte j := fun j =>
    hasFontByte_after (hs (0x050 + j.val) (by omega) (by omega))
  refine ⟨_, (Step.executed hi (.ldfi hop)).step, ?_⟩
  exact readBlock_sprite hfont (Nat.mod_lt _ (by decide)) (val_ofInt_fontAddress _)

/-- A program that stores V0 and V1 at 0x300 and then asks for the sprite of the digit in V0. -/
def storeThenSprite : List UInt8 := [0xA3, 0x00, 0xF1, 0x55, 0xF0, 0x29]

/-- The store of `storeThenSprite` does not reach the font, so its last instruction finds the sprite of 0. -/
theorem step_footprint_store_then_sprite :
    let es : List Event := [.load storeThenSprite, .step, .step]
    let start := (blank .released (.ofScript #[])).reset
    let i : Instruction := { op := .ldfi, word := 0xF029 }
    (∀ k, 0x050 ≤ k → k < 0x0A0 → ¬ Since (StoresAt k) Resets start es) ∧ (start.after es).fetched = some i ∧
      ∃ m', (start.after es).step = .ok (some i) m' ∧ Footprint (start.after es) (some i) m' ∧
        m'.memory.readBlock m'.registers.index Font.height = [0xF0, 0x90, 0x90, 0x90, 0xF0] := by
  intro es start i
  have hfont : ∀ k, 0x050 ≤ k → k < 0x0A0 → ¬ Since (StoresAt k) Resets start es := by
    intro k _ hk
    have hindex : (start.after [.load storeThenSprite, .step]).registers.index.val = 0x300 := by decide +kernel
    have hldi : (start.after [.load storeThenSprite]).fetched = some { op := .ldi, word := 0xA300, addr := 0x300 } := by
      decide +kernel
    show ¬ Since (StoresAt k) Resets start ([] ++ [.load storeThenSprite] ++ [.step] ++ [.step])
    rw [since_concat, since_concat, since_concat]
    rintro (⟨-, j, hj, hle, -⟩ | ⟨-, ⟨-, j, hj, hle, hlt⟩ | ⟨-, h | ⟨-, h⟩⟩⟩)
    · change (start.after [.load storeThenSprite, .step]).registers.index.val ≤ k at hle
      omega
    · change (start.after [.load storeThenSprite]).fetched = some j at hj
      rw [hldi] at hj
      cases hj
      exact absurd hlt (Nat.not_lt_of_le hle)
    · cases h.1
    · exact since_nil h
  have hi : (start.after es).fetched = some i := by decide +kernel
  obtain ⟨m', hstep, hsprite⟩ := step_footprint.2.2 (blank .released (.ofScript #[])) es hfont i hi rfl
  have hdigit : ((start.after es).registers.read i.x).toNat % 16 = 0 := by decide +kernel
  rw [hdigit] at hsprite
  exact ⟨hfont, hi, m', hstep, step_footprint.1 _ _ _ hstep, hsprite⟩

end Machine
end Chip8
