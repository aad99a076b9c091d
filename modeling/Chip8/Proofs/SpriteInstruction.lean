import Chip8.Proofs.Decoding
import Chip8.Proofs.Footprint
import Chip8.Proofs.SpriteLaws

/-! # The sprite instruction

A sprite that a program draws has fifteen rows at most. They are on different lines of the screen, so no pixel is under two
set bits (`Spot.nodup_ofSprite`), and which pixels are under one is a matter of memory and registers before the
instruction (`Covers`). The window that is rewritten afterwards may hold the sprite; where it does not, and the
instruction does not move its own sprite, executing it again covers the same pixels and takes the sprite off. -/

namespace Chip8

theorem Spot.nodup_ofSprite {sprite : List Int} (h : sprite.length ≤ 32) (x y : Int) : (ofSprite sprite x y).Nodup := by
  induction sprite generalizing y with
  | nil => exact List.nodup_nil
  | cons row sprite ih =>
    rw [List.length_cons] at h
    rw [ofSprite, List.nodup_append]
    refine ⟨Screen.nodup_ofRow row x y, ih (by omega) (y + 1), ?_⟩
    rintro p hp q hq rfl
    -- The line of the first row comes again after 32 lines, and the sprite has no more.
    obtain ⟨b, -, rfl⟩ := List.mem_map.mp hp
    obtain ⟨j, hj, b', -, -, hspot⟩ := Screen.mem_ofSprite.mp hq
    have hline := congrArg (fun q : Spot => q.line.val) hspot
    simp only [ofCoords] at hline
    omega

theorem Instruction.nibble_of_decode {w : Int} {i : Instruction} (h : decode w = some i) (hop : i.op = .drw) :
    i.nibble < 16 := by
  have hadm := (of_decode h).2.1.admitted
  rw [hop] at hadm
  exact hadm.2.2.2

namespace Machine
variable {i : Instruction} {m m₁ : Machine} {p : Spot}

/-- A set bit of the sprite at the index register lands on `p`, drawn where the two registers say. The sprite has no byte
behind the end of the memory. -/
def Covers (i : Instruction) (m : Machine) (p : Spot) : Prop :=
  ∃ j : Nat, j < i.nibble ∧ ∃ byte, m.memory.cells[m.registers.index.val + j]? = some byte ∧
    ∃ b < 8, byte.toNat.testBit (7 - b) = true ∧
      Spot.ofCoords ((m.registers.read i.x).toNat + b) ((m.registers.read i.y).toNat + j) = p

/-- What a sprite instruction does to the machine. -/
structure Sprited (i : Instruction) (m m₁ : Machine) : Prop where
  covered : ∀ p, Covers i m p → m₁.screen.lit p = !m.screen.lit p
  uncovered : ∀ p, ¬ Covers i m p → m₁.screen.lit p = m.screen.lit p
  hit : (∃ p, Covers i m p ∧ m.screen.lit p = true) → m₁.registers.read Registers.flag = 1
  missed : ¬ (∃ p, Covers i m p ∧ m.screen.lit p = true) → m₁.registers.read Registers.flag = 0
  registers : ∀ y, y ≠ Registers.flag → m₁.registers.read y = m.registers.read y
  index : m₁.registers.index = m.registers.index
  window : m₁.memory.displayBlock = m₁.screen.packed
  memory : ∀ k (_ : k < 4096), k < 0xF00 → m₁.memory.cells[k] = m.memory.cells[k]

/-- The bytes of the sprite that the instruction draws, as numbers. -/
def spriteOf (i : Instruction) (m : Machine) : List Int :=
  (m.memory.readBlock m.registers.index i.nibble).map fun b => (b.toNat : Int)

/-- The pixels under the set bits of the sprite that the instruction draws. -/
def spotsOf (i : Instruction) (m : Machine) : List Spot :=
  Spot.ofSprite (spriteOf i m) (m.registers.read i.x).toNat (m.registers.read i.y).toNat

theorem length_spriteOf (i : Instruction) (m : Machine) :
    (spriteOf i m).length = Memory.room m.registers.index i.nibble := by
  rw [spriteOf, List.length_map, Memory.length_readBlock]

theorem getElem_spriteOf {j : Nat} (hj : j < (spriteOf i m).length) (h : m.registers.index.val + j < 4096) :
    ((spriteOf i m)[j] % 256).toNat = m.memory.cells[m.registers.index.val + j].toNat := by
  have hlt := m.memory.cells[m.registers.index.val + j].toNat_lt
  simp only [spriteOf, List.getElem_map]
  rw [Memory.getElem_readBlock _ _ _ _ _ h]
  omega

theorem mem_spotsOf : p ∈ spotsOf i m ↔ Covers i m p := by
  have hlen := length_spriteOf i m
  have hle := Memory.add_room_le m.registers.index i.nibble
  rw [spotsOf, Screen.mem_ofSprite]
  constructor
  · rintro ⟨j, hj, b, hb, hset, hp⟩
    have hlt : m.registers.index.val + j < 4096 := by omega
    have hrow : (j : Int) < i.nibble := by
      rw [hlen, Memory.room] at hj
      omega
    rw [getElem_spriteOf hj hlt] at hset
    exact ⟨j, hrow, _, Vector.getElem?_eq_getElem hlt, b, hb, hset, hp⟩
  · rintro ⟨j, hrow, byte, hbyte, b, hb, hset, hp⟩
    obtain ⟨hlt, rfl⟩ := Vector.getElem?_eq_some_iff.mp hbyte
    have hj : j < (spriteOf i m).length := by
      rw [hlen, Memory.room]
      omega
    rw [← getElem_spriteOf hj hlt] at hset
    exact ⟨j, hj, b, hb, hset, hp⟩

theorem drawn_spec (i : Instruction) (m : Machine) :
    (drawn i m).1 = decide (0 < m.screen.lit.dimmed (spotsOf i m)) ∧
      (drawn i m).2.lit = m.screen.lit.flips (spotsOf i m) := by
  have hbytes : (spriteOf i m).map UInt8.ofInt = m.memory.readBlock m.registers.index i.nibble := by
    simp only [spriteOf, List.map_map, Function.comp_def, ofInt_toNat, List.map_id']
  obtain ⟨s', hdraw, hlit, -⟩ := m.screen.draw_spec (spriteOf i m) (m.registers.read i.x).toNat (m.registers.read i.y).toNat
  rw [hbytes] at hdraw
  rw [drawn, hdraw]
  exact ⟨rfl, hlit⟩

theorem nodup_spotsOf (h : i.nibble < 16) (m : Machine) : (spotsOf i m).Nodup := by
  refine Spot.nodup_ofSprite ?_ _ _
  rw [length_spriteOf, Memory.room]
  omega

/-- A lit pixel is turned off if one is under a set bit, as no pixel is flipped twice. -/
theorem drawn_hit_iff (h : i.nibble < 16) (m : Machine) :
    (drawn i m).1 = true ↔ ∃ p, Covers i m p ∧ m.screen.lit p = true := by
  rw [(drawn_spec i m).1, decide_eq_true_iff, Grid.dimmed_of_nodup (nodup_spotsOf h m), List.countP_pos_iff]
  simp only [mem_spotsOf]

theorem lit_drawn (h : i.nibble < 16) (m : Machine) (p : Spot) :
    (drawn i m).2.lit p = (m.screen.lit p ^^ decide (p ∈ spotsOf i m)) := by
  rw [(drawn_spec i m).2, Grid.flips_apply_of_nodup (nodup_spotsOf h m)]

theorem sprited_of_drw (hop : i.op = .drw) (h : i.nibble < 16) (m : Machine) :
    ∃ m₁, execute i m = .ok (m.pc + 2) m₁ ∧ m₁.pc = m.pc ∧ Sprited i m m₁ := by
  have heff := Effect.drw (m := m) hop
  refine ⟨_, heff.execute, rfl, ?_⟩
  constructor
  case covered =>
    intro p hp
    exact (lit_drawn h m p).trans (by rw [decide_eq_true (mem_spotsOf.mpr hp), Bool.xor_true])
  case uncovered =>
    intro p hp
    exact (lit_drawn h m p).trans (by rw [decide_eq_false (mt mem_spotsOf.mp hp), Bool.xor_false])
  case hit =>
    intro hlit
    exact (Registers.read_setFlag _ _).trans (if_pos ((drawn_hit_iff h m).mpr hlit))
  case missed =>
    intro hlit
    exact (Registers.read_setFlag _ _).trans (if_neg (mt (drawn_hit_iff h m).mp hlit))
  case registers =>
    intro y hy
    exact Registers.read_setFlag_of_ne hy _
  case index => rfl
  case window =>
    exact Memory.displayBlock_writeDisplayBlock (Screen.length_packed _)
  case memory =>
    intro k hk hlt
    have hnone : storeCount i = 0 := by rw [storeCount, hop]
    exact heff.cell_eq hk (by omega) (by omega)

/-- The sprite stays where it is if neither the flag nor the display window is part of what says where. -/
theorem Sprited.covers_iff (h : Sprited i m m₁) (hx : i.x ≠ Registers.flag) (hy : i.y ≠ Registers.flag)
    (hclear : ∀ j : Nat, j < i.nibble → m.registers.index.val + j < 4096 → m.registers.index.val + j < 0xF00)
    (p : Spot) : Covers i m₁ p ↔ Covers i m p := by
  unfold Covers
  rw [h.index, h.registers i.x hx, h.registers i.y hy]
  refine exists_congr fun j => and_congr_right fun hj => ?_
  have hbyte : m₁.memory.cells[m.registers.index.val + j]? = m.memory.cells[m.registers.index.val + j]? := by
    by_cases hlt : m.registers.index.val + j < 4096
    · rw [Vector.getElem?_eq_getElem hlt, Vector.getElem?_eq_getElem hlt, h.memory _ hlt (hclear j hj hlt)]
    · rw [Vector.getElem?_eq_none (Nat.le_of_not_lt hlt), Vector.getElem?_eq_none (Nat.le_of_not_lt hlt)]
  rw [hbyte]

theorem Sprited.flag_eq_one_iff (h : Sprited i m m₁) :
    m₁.registers.read Registers.flag = 1 ↔ ∃ p, Covers i m p ∧ m.screen.lit p = true := by
  refine ⟨fun hflag => ?_, h.hit⟩
  by_contra hmissed
  have hzero := h.missed hmissed
  rw [hflag] at hzero
  exact absurd hzero (by decide)

/-- The second of two instructions that cover the same pixels undoes the first on the screen, and turns off what the first
one lit. -/
theorem Sprited.again {m₂ : Machine} (h₁ : Sprited i m m₁) (h₂ : Sprited i m₁ m₂)
    (hsame : ∀ p, Covers i m₁ p ↔ Covers i m p) : m₂.screen.rows = m.screen.rows ∧
      (m₂.registers.read Registers.flag = 1 ↔ ∃ p, Covers i m p ∧ m.screen.lit p = false) := by
  constructor
  · refine Screen.rows_eq_of_lit (funext fun p => ?_)
    by_cases hp : Covers i m p
    · rw [h₂.covered p ((hsame p).mpr hp), h₁.covered p hp, Bool.not_not]
    · rw [h₂.uncovered p (mt (hsame p).mp hp), h₁.uncovered p hp]
  · rw [h₂.flag_eq_one_iff]
    refine exists_congr fun p => ?_
    rw [hsame p]
    refine and_congr_right fun hp => ?_
    rw [h₁.covered p hp, Bool.not_eq_true']

/-- A decoded sprite instruction flips the pixels that its sprite covers, sets the flag if one of them was lit and clears it
otherwise, changes no other register, and shows the new screen in the display window. If the flag register does not tell
where to draw and no byte of the sprite is in the window, executing it again restores the screen; the flag then tells
whether a covered pixel was dark at first. -/
theorem drw_flips_covered (w : Int) (i : Instruction) (hi : Instruction.decode w = some i) (hop : i.op = .drw) (m : Machine) :
    ∃ m₁, execute i m = .ok (m.pc + 2) m₁ ∧ Sprited i m m₁ ∧
      (i.x ≠ Registers.flag → i.y ≠ Registers.flag →
        (∀ j : Nat, j < i.nibble → m.registers.index.val + j < 4096 → m.registers.index.val + j < 0xF00) →
        ∃ m₂, execute i m₁ = .ok (m.pc + 2) m₂ ∧ Sprited i m₁ m₂ ∧ m₂.screen.rows = m.screen.rows ∧
          (m₂.registers.read Registers.flag = 1 ↔ ∃ p, Covers i m p ∧ m.screen.lit p = false)) := by
  have hn := Instruction.nibble_of_decode hi hop
  obtain ⟨m₁, hfirst, hpc, h₁⟩ := sprited_of_drw hop hn m
  refine ⟨m₁, hfirst, h₁, fun hx hy hclear => ?_⟩
  obtain ⟨m₂, hsecond, -, h₂⟩ := sprited_of_drw hop hn m₁
  rw [hpc] at hsecond
  exact ⟨m₂, hsecond, h₂, h₁.again h₂ (h₁.covers_iff hx hy hclear)⟩

/-- The sprite of the digit 0, drawn twice on a dark screen across its lower right corner. -/
theorem drw_flips_covered_across_corner :
    let i : Instruction := { op := .drw, word := 0xD125, x := 1, y := 2, nibble := 5 }
    let m : Machine := { new .released (.ofScript #[]) with
      registers := ((Registers.blank.put 1 62).put 2 31).setIndex 0x050 }
    Instruction.decode 0xD125 = some i ∧ i.op = .drw ∧ i.x ≠ Registers.flag ∧ i.y ≠ Registers.flag ∧
      (∀ j : Nat, j < i.nibble → m.registers.index.val + j < 4096 → m.registers.index.val + j < 0xF00) ∧
      ∃ m₁, execute i m = .ok (m.pc + 2) m₁ ∧ m₁.screen.lit ⟨1, 31⟩ = true ∧ m₁.registers.read Registers.flag = 0 ∧
        ∃ m₂, execute i m₁ = .ok (m.pc + 2) m₂ ∧ m₂.screen.rows = m.screen.rows ∧
          m₂.registers.read Registers.flag = 1 := by
  intro i m
  have hi : Instruction.decode 0xD125 = some i := by decide +kernel
  have hclear : ∀ j : Nat, j < i.nibble → m.registers.index.val + j < 4096 → m.registers.index.val + j < 0xF00 := by
    intro j hj _
    have hindex : m.registers.index.val = 0x050 := rfl
    have hrows : i.nibble = 5 := rfl
    omega
  have hdark (p : Spot) : m.screen.lit p = false := by
    rw [Screen.lit_eq_gridOf, Screen.gridOf, show m.screen.rows = Vector.replicate 32 0 from rfl, Fin.getElem_fin,
      Vector.getElem_replicate, BitVec.ofNat_eq_ofNat, BitVec.getMsbD_zero]
  -- The fourth bit of the first row is set.
  have hcovers : Covers i m ⟨1, 31⟩ := ⟨0, by decide, 0xF0, by decide +kernel, 3, by decide, by decide, by decide⟩
  obtain ⟨m₁, hfirst, h₁, hagain⟩ := drw_flips_covered 0xD125 i hi rfl m
  obtain ⟨m₂, hsecond, -, hrows, hflag⟩ := hagain (by decide) (by decide) hclear
  refine ⟨hi, rfl, by decide, by decide, hclear, m₁, hfirst, ?_, ?_, m₂, hsecond, hrows, ?_⟩
  · rw [h₁.covered _ hcovers, hdark]
    rfl
  · refine h₁.missed ?_
    rintro ⟨p, -, hlit⟩
    rw [hdark] at hlit
    cases hlit
  · exact hflag.mpr ⟨_, hcovers, hdark _⟩

end Machine
end Chip8
