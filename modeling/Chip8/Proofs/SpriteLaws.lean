import Chip8.Proofs.Sprites

/-! # Laws of drawing

A sprite flips the pixels under its set bits, however it overlaps itself or wraps, so what holds of flips holds of
whole sprites: they may be drawn in either order, drawing one again takes it off (`blits_commute_and_cancel`), and the
number of lit pixels tells whether one was turned off (`litCount_blit`). -/

namespace Chip8

namespace Screen
variable {s s' : Screen} {x : Int}

theorem rows_eq_of_lit (h : s.lit = s'.lit) : s.rows = s'.rows := by
  rw [rows_eq_iff]
  intro x y _ _
  rw [pixel_eq_lit, pixel_eq_lit, h]

theorem eq_of_lit (hlit : s.lit = s'.lit) (hdirty : s.dirty = s'.dirty) : s = s' := by
  have hrows := rows_eq_of_lit hlit
  cases s
  cases s'
  cases hrows
  cases hdirty
  rfl

theorem length_ofSprite_pos {sprite : List Int} (x y : Int)
    (h : ∃ row ∈ sprite, ∃ b < 8, (row % 256).toNat.testBit b = true) : 0 < (Spot.ofSprite sprite x y).length := by
  obtain ⟨row, hrow, b, hb, hset⟩ := h
  obtain ⟨i, hi, rfl⟩ := List.getElem_of_mem hrow
  have hb' : 7 - (7 - b) = b := by omega
  exact List.length_pos_of_mem (mem_ofSprite.mpr ⟨i, hi, 7 - b, by omega, by rw [hb', hset], rfl⟩)

theorem blits_commute_and_cancel (rs₁ rs₂ : List Int) (x₁ y₁ x₂ y₂ i j : Int) (hx₁ : ColumnFits x₁)
    (hx₂ : ColumnFits x₂) (s : Screen) :
    (∃ h₁ h₂ h₁' h₂' t t' s', blit rs₁ x₁ y₁ s = .ok h₁ t ∧ blit rs₂ x₂ y₂ t = .ok h₂ s' ∧
      blit rs₂ x₂ y₂ s = .ok h₂' t' ∧ blit rs₁ x₁ y₁ t' = .ok h₁' s') ∧
    (∃ h h' t s', blit rs₁ x₁ y₁ s = .ok h t ∧ blit rs₁ x₁ y₁ t = .ok h' s' ∧ s'.rows = s.rows ∧
      ((∃ row ∈ rs₁, ∃ b < 8, (row % 256).toNat.testBit b = true) → h = true ∨ h' = true)) ∧
    (ColumnFits (x₁ + 64 * i) → blit rs₁ (x₁ + 64 * i) (y₁ + 32 * j) s = blit rs₁ x₁ y₁ s) := by
  obtain ⟨t, hfirst, hlit, -⟩ := blit_of_fits hx₁ rs₁ y₁ s
  refine ⟨?_, ?_, ?_⟩
  · obtain ⟨s', hsecond, hlit', hdirty⟩ := blit_of_fits hx₂ rs₂ y₂ t
    obtain ⟨u, hfirst', hlitu, -⟩ := blit_of_fits hx₂ rs₂ y₂ s
    obtain ⟨u', hsecond', hlitu', hdirty'⟩ := blit_of_fits hx₁ rs₁ y₁ u
    have hends : u' = s' := by
      refine eq_of_lit ?_ (hdirty'.trans hdirty.symm)
      rw [hlitu', hlitu, hlit', hlit, Grid.flips_comm]
    rw [hends] at hsecond'
    exact ⟨_, _, _, _, t, u, s', hfirst, hsecond, hfirst', hsecond'⟩
  · obtain ⟨s', hsecond, hlit', -⟩ := blit_of_fits hx₁ rs₁ y₁ t
    refine ⟨_, _, t, s', hfirst, hsecond, rows_eq_of_lit ?_, ?_⟩
    · rw [hlit', hlit, Grid.flips_flips]
    · intro hset
      -- What the first round of flips leaves lit the second one turns off, so one of them meets a lit pixel.
      have hlength := length_ofSprite_pos x₁ y₁ hset
      have htwice := s.lit.dimmed_twice (Spot.ofSprite rs₁ x₁ y₁)
      rw [← hlit] at htwice
      simp only [decide_eq_true_iff]
      omega
  · intro hmoved
    unfold ColumnFits at hx₁ hmoved
    have hx : (x₁ + 64 * i) % 64 = x₁ % 64 := Int.add_mul_emod_self_left x₁ 64 i
    have hy : (y₁ + 32 * j) % 32 = y₁ % 32 := Int.add_mul_emod_self_left y₁ 32 j
    rw [blit, blit, if_neg (by omega), if_neg (by omega)]
    simp only [draw, hx, hy]

theorem blits_commute_and_cancel_across_corner : ColumnFits 63 ∧ ColumnFits 60 ∧ ColumnFits (63 + 64 * (-2)) ∧
    (∃ row ∈ [0x3c, 0xff], ∃ b < 8, ((row : Int) % 256).toNat.testBit b = true) ∧
    (∃ h₁ h₂ h₁' h₂' t t' s, blit [0x3c, 0xff] 63 31 blank = .ok h₁ t ∧ blit [0x1ff] 60 (-1) t = .ok h₂ s ∧
      blit [0x1ff] 60 (-1) blank = .ok h₂' t' ∧ blit [0x3c, 0xff] 63 31 t' = .ok h₁' s) ∧
    (∃ h h' t s, blit [0x3c, 0xff] 63 31 blank = .ok h t ∧ blit [0x3c, 0xff] 63 31 t = .ok h' s ∧
      s.rows = blank.rows ∧ (h = true ∨ h' = true)) ∧
    blit [0x3c, 0xff] (63 + 64 * (-2)) (31 + 32 * 5) blank = blit [0x3c, 0xff] 63 31 blank := by
  have hx₁ : ColumnFits 63 := by decide
  have hx₂ : ColumnFits 60 := by decide
  have hmoved : ColumnFits (63 + 64 * (-2)) := by decide
  have hset : ∃ row ∈ [0x3c, 0xff], ∃ b < 8, ((row : Int) % 256).toNat.testBit b = true := by decide
  obtain ⟨horders, ⟨h, h', t, s, hfirst, hsecond, hrows, hhit⟩, hsame⟩ :=
    blits_commute_and_cancel [0x3c, 0xff] [0x1ff] 63 31 60 (-1) (-2) 5 hx₁ hx₂ blank
  exact ⟨hx₁, hx₂, hmoved, hset, horders, ⟨h, h', t, s, hfirst, hsecond, hrows, hhit hset⟩, hsame hmoved⟩

/-! ### Lit pixels -/

/-- How many bits are set in the low eight bits of the rows. -/
def setBits (sprite : List Int) : Nat :=
  (sprite.map fun row => (List.range 8).countP (row % 256).toNat.testBit).sum

theorem length_ofRow (row x y : Int) :
    (Spot.ofRow row x y).length = (List.range 8).countP (row % 256).toNat.testBit := by
  have hreverse : (List.range 8).reverse = (List.range 8).map fun b => 7 - b := by decide
  rw [Spot.ofRow, List.length_map, ← List.countP_eq_length_filter]
  conv_rhs => rw [← List.countP_reverse, hreverse, List.countP_map]
  rfl

theorem length_ofSprite (sprite : List Int) (x y : Int) : (Spot.ofSprite sprite x y).length = setBits sprite := by
  unfold setBits
  induction sprite generalizing y with
  | nil => rfl
  | cons row sprite ih => rw [Spot.ofSprite, List.length_append, length_ofRow, ih, List.map_cons, List.sum_cons]

theorem countP_range (f : Nat → Bool) (n : Nat) : (List.range n).countP f = ∑ k : Fin n, (f k).toNat := by
  induction n with
  | zero => rfl
  | succ n ih =>
    rw [List.range_succ, List.countP_append, ih, Fin.sum_univ_castSucc, List.countP_singleton, Fin.val_last]
    cases f n <;> rfl

theorem litCount_eq (s : Screen) : s.litCount = s.lit.litCount := by
  have hfold (rows : List (BitVec 64)) : rows.foldr (fun row n => (List.range 64).countP row.getMsbD + n) 0 =
      (rows.map fun row => (List.range 64).countP row.getMsbD).sum := by
    rw [List.sum, List.foldr_map]
  have hrows : s.rows.toList = List.ofFn fun line : Fin 32 => s.rows[line] := by
    refine List.ext_getElem ?_ fun k _ _ => ?_
    · rw [Vector.length_toList, List.length_ofFn]
    · rw [Vector.getElem_toList, List.getElem_ofFn]
      rfl
  rw [litCount, hfold, hrows, List.map_ofFn, List.sum_ofFn, Grid.litCount, ← Spot.equivProd.sum_comp,
    Fintype.sum_prod_type_right]
  refine Finset.sum_congr rfl fun line _ => ?_
  rw [Function.comp_apply, countP_range, lit_eq_gridOf]
  rfl

theorem litCount_blit (sprite : List Int) (y : Int) (hx : ColumnFits x) (s : Screen) :
    ∃ hit s', blit sprite x y s = .ok hit s' ∧
      (s'.litCount : Int) = s.litCount + setBits sprite - 2 * s.lit.dimmed (Spot.ofSprite sprite x y) ∧
      (hit = false ↔ s'.litCount = s.litCount + setBits sprite) := by
  obtain ⟨s', hblit, hlit, -⟩ := blit_of_fits hx sprite y s
  have hcount := s.lit.litCount_flips (Spot.ofSprite sprite x y)
  rw [← hlit, ← litCount_eq, ← litCount_eq, length_ofSprite] at hcount
  refine ⟨_, s', hblit, by omega, ?_⟩
  rw [decide_eq_false_iff_not]
  omega

theorem litCount_blit_self_overlapping : ColumnFits (-1) ∧
    ∃ s, blit (List.replicate 33 0x181) (-1) 5 blank = .ok true s ∧ s.litCount = 62 := by
  have hfits : ColumnFits (-1) := by decide
  obtain ⟨hit, s, hblit, hcount, hhit⟩ := litCount_blit (List.replicate 33 0x181) 5 hfits blank
  have hbefore : blank.litCount = 0 := by decide +kernel
  have hset : setBits (List.replicate 33 0x181) = 66 := by decide +kernel
  have hdimmed : blank.lit.dimmed (Spot.ofSprite (List.replicate 33 0x181) (-1) 5) = 2 := by decide +kernel
  rw [hbefore, hset, hdimmed] at hcount
  have hlit : s.litCount = 62 := by omega
  have htrue : hit = true := by
    rw [hlit, hbefore, hset] at hhit
    cases hit with
    | false => exact absurd (hhit.mp rfl) (by decide)
    | true => rfl
  rw [htrue] at hblit
  exact ⟨hfits, s, hblit, hlit⟩

end Screen
end Chip8
