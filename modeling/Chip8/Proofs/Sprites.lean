import Chip8.Proofs.Bytes
import Chip8.Proofs.Flips
import Chip8.Proofs.Picture

/-! # Sprites

A sprite is drawn row by row: a row of the screen and a row of the sprite are combined at once. That is the same as
flipping single pixels, one for each set bit of the sprite (`drawRows_spec`, `blit_flips_pixels`), and what flips do
to a grid sprites do to the screen. -/

namespace Chip8

/-- A pixel of the screen. -/
structure Spot where
  column : Fin 64
  line : Fin 32
deriving DecidableEq

namespace Spot

theorem column_lt (x : Int) : (x % 64).toNat < 64 := by omega

theorem line_lt (y : Int) : (y % 32).toNat < 32 := by omega

/-- Where coordinates lead to, which wrap at both edges. -/
def ofCoords (x y : Int) : Spot := ⟨⟨(x % 64).toNat, column_lt x⟩, ⟨(y % 32).toNat, line_lt y⟩⟩

/-- The pixels under the set bits of a row of a sprite, the highest bit first. Of the row the low eight bits count. -/
def ofRow (row x y : Int) : List Spot :=
  ((List.range 8).filter fun b => (row % 256).toNat.testBit (7 - b)).map fun b : Nat => .ofCoords (x + b) y

/-- The pixels under the set bits of a sprite with its upper left corner at `(x, y)`, row after row. -/
def ofSprite : List Int → Int → Int → List Spot
  | [], _, _ => []
  | row :: sprite, x, y => ofRow row x y ++ ofSprite sprite x (y + 1)

def equivProd : Fin 64 × Fin 32 ≃ Spot :=
  ⟨fun q => ⟨q.1, q.2⟩, fun p => ⟨p.column, p.line⟩, fun _ => rfl, fun _ => rfl⟩

instance : Fintype Spot := Fintype.ofEquiv _ equivProd

end Spot

namespace Screen
variable {s : Screen} {rows : Vector (BitVec 64) 32} {row x y : Int} {p : Spot}

def lit (s : Screen) : Grid Spot := fun p => s.pixel p.column p.line

/-- What is lit by rows of a screen. -/
def gridOf (rows : Vector (BitVec 64) 32) : Grid Spot := fun p => rows[p.line].getMsbD p.column

theorem lit_eq_gridOf (s : Screen) : s.lit = gridOf s.rows := by
  funext p
  exact s.pixel_natCast p.column.isLt p.line.isLt

theorem pixel_eq_lit (s : Screen) (x y : Int) : s.pixel x y = s.lit (.ofCoords x y) := by
  have hx : (((x % 64).toNat : Nat) : Int) % 64 = x % 64 := by omega
  have hy : (((y % 32).toNat : Nat) : Int) % 32 = y % 32 := by omega
  simp only [lit, Spot.ofCoords, pixel, hx, hy]

theorem getMsbD_ofInt (row : Int) {b : Nat} (hb : b < 8) :
    (UInt8.ofInt row).toBitVec.getMsbD b = (row % 256).toNat.testBit (7 - b) := by
  rw [BitVec.getMsbD, decide_eq_true hb, Bool.true_and, ← toNat_ofInt]
  rfl

theorem nodup_ofRow (row x y : Int) : (Spot.ofRow row x y).Nodup := by
  refine (List.nodup_range.filter _).map_on fun b hb b' hb' h => ?_
  have hb := List.mem_range.mp (List.mem_filter.mp hb).1
  have hb' := List.mem_range.mp (List.mem_filter.mp hb').1
  have hcolumn : (Spot.ofCoords (x + b) y).column.val = (Spot.ofCoords (x + b') y).column.val := by rw [h]
  simp only [Spot.ofCoords] at hcolumn
  omega

section Row
variable {line : Fin 32} (hline : line.val = (y % 32).toNat)
include hline

/-- A row of a sprite reaches a pixel that is on its line and under one of its set bits. -/
theorem mem_ofRow : p ∈ Spot.ofRow row x y ↔
    p.line = line ∧ (spriteRow (UInt8.ofInt row) (x % 64).toNat).getMsbD p.column = true := by
  have hp := p.column.isLt
  rw [getMsbD_spriteRow _ _ _ (by omega) hp, Fin.ext_iff, hline]
  simp only [Spot.ofRow, List.mem_map, List.mem_filter, List.mem_range]
  constructor
  · rintro ⟨b, ⟨hb, hset⟩, rfl⟩
    have hoffset : ((Spot.ofCoords (x + b) y).column.val + 64 - (x % 64).toNat) % 64 = b := by
      simp only [Spot.ofCoords]
      omega
    rw [hoffset, getMsbD_ofInt row hb]
    exact ⟨rfl, hset⟩
  · rintro ⟨hpline, hset⟩
    by_cases hb : (p.column.val + 64 - (x % 64).toNat) % 64 < 8
    · rw [getMsbD_ofInt row hb] at hset
      refine ⟨_, ⟨hb, hset⟩, ?_⟩
      have hcolumn : ((x + ((p.column.val + 64 - (x % 64).toNat) % 64 : Nat)) % 64).toNat = p.column := by omega
      simp only [Spot.ofCoords, hcolumn, ← hpline]
    · rw [BitVec.getMsbD_of_ge _ _ (Nat.le_of_not_lt hb)] at hset
      cases hset

/-- Combining a row of the screen with one of a sprite flips the pixels under the set bits. -/
theorem gridOf_set : gridOf (rows.set line (rows[line] ^^^ spriteRow (UInt8.ofInt row) (x % 64).toNat)) =
    (gridOf rows).flips (Spot.ofRow row x y) := by
  funext p
  rw [Grid.flips_apply_of_nodup (nodup_ofRow row x y)]
  simp only [mem_ofRow hline]
  by_cases h : p.line = line
  · subst h
    simp [gridOf]
  · have hne : ¬ line.val = p.line.val := fun hval => h (Fin.ext hval.symm)
    simp [gridOf, h, hne]

/-- The two rows have a pixel in common if a pixel under the set bits is turned off. -/
theorem and_ne_zero_iff : rows[line] &&& spriteRow (UInt8.ofInt row) (x % 64).toNat ≠ 0 ↔
    0 < (gridOf rows).dimmed (Spot.ofRow row x y) := by
  rw [Grid.dimmed_of_nodup (nodup_ofRow row x y), List.countP_pos_iff]
  constructor
  · intro h
    by_contra hnone
    refine h (BitVec.eq_of_getMsbD_eq fun k hk => ?_)
    rw [BitVec.getMsbD_and, BitVec.ofNat_eq_ofNat, BitVec.getMsbD_zero]
    by_contra hboth
    rw [Bool.not_eq_false, Bool.and_eq_true] at hboth
    exact hnone ⟨⟨⟨k, hk⟩, line⟩, (mem_ofRow hline).mpr ⟨rfl, hboth.2⟩, hboth.1⟩
  · rintro ⟨p, hp, hlit⟩ h
    obtain ⟨rfl, hset⟩ := (mem_ofRow hline).mp hp
    have hboth : (rows[p.line] &&& spriteRow (UInt8.ofInt row) (x % 64).toNat).getMsbD p.column = true := by
      rw [BitVec.getMsbD_and, hset, Bool.and_true]
      exact hlit
    rw [h, BitVec.ofNat_eq_ofNat, BitVec.getMsbD_zero] at hboth
    cases hboth

end Row

theorem drawRows_spec (sprite : List Int) (x : Int) {y : Int} {line : Fin 32} (hline : line.val = (y % 32).toNat)
    (rows : Vector (BitVec 64) 32) (hit : Bool) : ∃ rows',
      drawRows (x % 64).toNat rows line hit (sprite.map UInt8.ofInt) =
        (hit || decide (0 < (gridOf rows).dimmed (Spot.ofSprite sprite x y)), rows') ∧
      gridOf rows' = (gridOf rows).flips (Spot.ofSprite sprite x y) := by
  induction sprite generalizing y line rows hit with
  | nil => exact ⟨rows, by simp [drawRows, Spot.ofSprite, Grid.dimmed], rfl⟩
  | cons row sprite ih =>
    have hnext : (line + 1).val = ((y + 1) % 32).toNat := by
      rw [Fin.val_add, hline]
      omega
    -- What is left of the sprite is drawn one line further down, on the grid that the first row leaves.
    obtain ⟨rows', hrest, hgrid⟩ := ih hnext
      (rows.set line (rows[line] ^^^ spriteRow (UInt8.ofInt row) (x % 64).toNat))
      (hit || rows[line] &&& spriteRow (UInt8.ofInt row) (x % 64).toNat != 0)
    rw [gridOf_set hline] at hrest hgrid
    refine ⟨rows', ?_, ?_⟩
    · have hhit : (rows[line] &&& spriteRow (UInt8.ofInt row) (x % 64).toNat != 0) =
          decide (0 < (gridOf rows).dimmed (Spot.ofRow row x y)) := by
        rw [Bool.eq_iff_iff, bne_iff_ne, and_ne_zero_iff hline, decide_eq_true_iff]
      rw [List.map_cons, drawRows, hrest, hhit, Spot.ofSprite, Grid.dimmed_append, Bool.or_assoc]
      simp only [Nat.add_pos_iff_pos_or_pos, Bool.decide_or]
    · rw [hgrid, Spot.ofSprite, Grid.flips_append]

/-- Drawing flips the pixels under the set bits, and tells whether one of the flips turns a lit pixel off. -/
theorem draw_spec (s : Screen) (sprite : List Int) (x y : Int) : ∃ s',
    s.draw (sprite.map UInt8.ofInt) x y = (decide (0 < s.lit.dimmed (Spot.ofSprite sprite x y)), s') ∧
      s'.lit = s.lit.flips (Spot.ofSprite sprite x y) ∧ s'.dirty = true := by
  have hline : (⟨(y % 32).toNat, Spot.line_lt y⟩ : Fin 32).val = (y % 32).toNat := rfl
  obtain ⟨rows', hdraw, hgrid⟩ := drawRows_spec sprite x hline s.rows false
  refine ⟨⟨rows', true⟩, ?_, ?_, rfl⟩
  · rw [draw, hdraw, lit_eq_gridOf, Bool.false_or]
  · rw [lit_eq_gridOf, lit_eq_gridOf, hgrid]

/-- The columns that a sprite may be drawn at. -/
def ColumnFits (x : Int) : Prop := -0x8000000000000000 ≤ x ∧ x < 0x8000000000000000

instance : Decidable (ColumnFits x) := inferInstanceAs (Decidable (_ ∧ _))

theorem blit_of_fits (hx : ColumnFits x) (sprite : List Int) (y : Int) (s : Screen) : ∃ s',
    blit sprite x y s = .ok (decide (0 < s.lit.dimmed (Spot.ofSprite sprite x y))) s' ∧
      s'.lit = s.lit.flips (Spot.ofSprite sprite x y) ∧ s'.dirty = true := by
  unfold ColumnFits at hx
  obtain ⟨s', hdraw, hafter⟩ := s.draw_spec sprite x y
  refine ⟨s', ?_, hafter⟩
  rw [blit, if_neg (by omega), hdraw]

theorem blit_of_not_fits (hx : ¬ ColumnFits x) (sprite : List Int) (y : Int) (s : Screen) :
    blit sprite x y s = .error .columnOutOfRange s := by
  unfold ColumnFits at hx
  rw [blit, if_pos (by omega)]

theorem mem_ofSprite {sprite : List Int} : p ∈ Spot.ofSprite sprite x y ↔
    ∃ i, ∃ h : i < sprite.length, ∃ b < 8, (sprite[i] % 256).toNat.testBit (7 - b) = true ∧
      Spot.ofCoords (x + b) (y + i) = p := by
  induction sprite generalizing y with
  | nil => simp [Spot.ofSprite]
  | cons row sprite ih =>
    rw [Spot.ofSprite, List.mem_append, ih]
    simp only [Spot.ofRow, List.mem_map, List.mem_filter, List.mem_range]
    have hfirst : y + ((0 : Nat) : Int) = y := by omega
    have hnext (i : Nat) : y + ((i + 1 : Nat) : Int) = y + 1 + i := by omega
    constructor
    · rintro (⟨b, ⟨hb, hset⟩, hp⟩ | ⟨i, h, b, hb, hset, hp⟩)
      · exact ⟨0, Nat.zero_lt_succ _, b, hb, hset, by rw [hfirst]; exact hp⟩
      · exact ⟨i + 1, Nat.succ_lt_succ h, b, hb, hset, by rw [hnext]; exact hp⟩
    · rintro ⟨i, h, b, hb, hset, hp⟩
      cases i with
      | zero => exact .inl ⟨b, ⟨hb, hset⟩, by rw [← hp, hfirst]⟩
      | succ i => exact .inr ⟨i, Nat.lt_of_succ_lt_succ h, b, hb, hset, by rw [← hp, hnext]⟩

theorem blit_flips_pixels (sprite : List Int) (x y : Int) (s : Screen) :
    (ColumnFits x → ∃ hit s', blit sprite x y s = .ok hit s' ∧
      s'.lit = s.lit.flips (Spot.ofSprite sprite x y) ∧
      (hit = true ↔ 0 < s.lit.dimmed (Spot.ofSprite sprite x y)) ∧
      (∀ p, s'.lit p = (s.lit p ^^ decide (Odd ((Spot.ofSprite sprite x y).count p)))) ∧
      (∀ p, (∀ i (h : i < sprite.length), ∀ b < 8, (sprite[i] % 256).toNat.testBit (7 - b) = true →
        Spot.ofCoords (x + b) (y + i) ≠ p) → s'.lit p = s.lit p) ∧
      s'.dirty = true) ∧
    (¬ ColumnFits x → blit sprite x y s = .error .columnOutOfRange s) := by
  refine ⟨fun hx => ?_, fun hx => blit_of_not_fits hx sprite y s⟩
  obtain ⟨s', hblit, hlit, hdirty⟩ := blit_of_fits hx sprite y s
  refine ⟨_, s', hblit, hlit, decide_eq_true_iff, fun p => ?_, fun p hp => ?_, hdirty⟩
  · rw [hlit, Grid.flips_apply]
  · have hnone : p ∉ Spot.ofSprite sprite x y := by
      rw [mem_ofSprite]
      rintro ⟨i, h, b, hb, hset, heq⟩
      exact hp i h b hb hset heq
    rw [hlit, Grid.flips_apply_of_not_mem hnone]

/-- The sprite reaches line 31 with its first row and its last, and in the columns 63 and 6. -/
theorem blit_flips_pixels_overlapping : ColumnFits 0x7fffffffffffffff ∧ ¬ ColumnFits 0x8000000000000000 ∧
    (∃ s, blit (List.replicate 33 0x181) 0x7fffffffffffffff (-1) blank = .ok true s ∧
      s.lit ⟨63, 31⟩ = false ∧ s.lit ⟨6, 31⟩ = false ∧ s.lit ⟨63, 30⟩ = true ∧ s.lit ⟨6, 30⟩ = true ∧
      s.lit ⟨7, 30⟩ = false ∧ s.dirty = true) ∧
    blit [] 0x8000000000000000 0 blank = .error .columnOutOfRange blank := by
  have hfits : ColumnFits 0x7fffffffffffffff := by decide
  have hnot : ¬ ColumnFits 0x8000000000000000 := by decide
  obtain ⟨hit, s, hblit, -, hhit, hlit, -, hdirty⟩ :=
    (blit_flips_pixels (List.replicate 33 0x181) 0x7fffffffffffffff (-1) blank).1 hfits
  have htrue : hit = true := hhit.mpr (by decide +kernel)
  subst htrue
  refine ⟨hfits, hnot, ⟨s, hblit, ?_, ?_, ?_, ?_, ?_, hdirty⟩,
    (blit_flips_pixels [] 0x8000000000000000 0 blank).2 hnot⟩
  all_goals
    rw [hlit]
    decide +kernel

end Screen
end Chip8
