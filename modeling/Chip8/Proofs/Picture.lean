import Chip8.View.Picture

/-! # The picture of a screen

Every pixel can be read off the picture, so screens with one picture are lit at the same places. -/

namespace Chip8

namespace Screen
variable {s s' : Screen}

theorem pixel_natCast (s : Screen) {x y : Nat} (hx : x < 64) (hy : y < 32) : s.pixel x y = s.rows[y].getMsbD x := by
  have hcolumn : ((x : Int) % 64).toNat = x := by omega
  have hline : ((y : Int) % 32).toNat = y := by omega
  simp only [pixel, hcolumn, hline]
  rfl

/-- Grids are the same if they are lit at the same places. -/
theorem rows_eq_iff : s.rows = s'.rows ↔ ∀ x y : Nat, x < 64 → y < 32 → s.pixel x y = s'.pixel x y := by
  constructor
  · intro h x y _ _
    simp only [pixel, h]
  · intro h
    refine Vector.ext fun y hy => BitVec.eq_of_getMsbD_eq fun x hx => ?_
    rw [← pixel_natCast s hx hy, ← pixel_natCast s' hx hy]
    exact h x y hx hy

end Screen

namespace View
variable {s s' : Screen}

theorem glyph_inj {a b c d : Bool} : glyph a b = glyph c d ↔ a = c ∧ b = d := by
  revert a b c d
  decide

theorem pictureLine_eq_iff {l : Nat} : pictureLine s l = pictureLine s' l ↔ ∀ x : Nat, x < 64 →
    s.pixel x (2 * l : Nat) = s'.pixel x (2 * l : Nat) ∧ s.pixel x (2 * l + 1 : Nat) = s'.pixel x (2 * l + 1 : Nat) := by
  simp only [pictureLine, List.map_inj_left, List.mem_range, glyph_inj]

/-- The picture shows every pixel, and nothing but the pixels. -/
theorem picture_eq_iff : picture s = picture s' ↔ s.rows = s'.rows := by
  simp only [picture, List.map_inj_left, List.mem_range, String.ofList_inj, pictureLine_eq_iff, Screen.rows_eq_iff]
  constructor
  · intro h x y hx hy
    -- The line of a row has it above or below.
    have hline := h (y / 2) (by omega) x hx
    rcases Nat.mod_two_eq_zero_or_one y with heven | hodd
    · have hy' : 2 * (y / 2) = y := by omega
      rw [hy'] at hline
      exact hline.1
    · have hy' : 2 * (y / 2) + 1 = y := by omega
      rw [hy'] at hline
      exact hline.2
  · intro h l hl x hx
    exact ⟨h x (2 * l) hx (by omega), h x (2 * l + 1) hx (by omega)⟩

end View
end Chip8
