import Mathlib.Algebra.BigOperators.Fin
import Mathlib.Algebra.Ring.Parity
import Mathlib.Data.Fintype.BigOperators

/-! # Flipping pixels

A grid of pixels, and pixels of it flipped one after the other. What becomes of a pixel is a matter of how often it is
flipped (`flips_apply`), so the order does not count and flips undo themselves. A flip turns a pixel on or off, which
gives the number of lit pixels after flips from the number of those that turned one off (`litCount_flips`). -/

namespace Chip8

/-- Which of the pixels are lit. -/
abbrev Grid (α : Type) := α → Bool

namespace Grid
variable {α : Type} [DecidableEq α] {g : Grid α} {p q : α} {ps qs : List α}

def flip (g : Grid α) (p : α) : Grid α := Function.update g p (!g p)

/-- The grid after flips in the order of the list. -/
def flips (g : Grid α) (ps : List α) : Grid α := ps.foldl flip g

/-- How many of the flips turn a lit pixel off. -/
def dimmed (g : Grid α) : List α → Nat
  | [] => 0
  | p :: ps => (g p).toNat + (g.flip p).dimmed ps

theorem flips_nil (g : Grid α) : g.flips [] = g := rfl

theorem flips_cons (g : Grid α) (p : α) (ps : List α) : g.flips (p :: ps) = (g.flip p).flips ps := rfl

theorem flips_append (g : Grid α) (ps qs : List α) : g.flips (ps ++ qs) = (g.flips ps).flips qs := List.foldl_append

theorem flip_self (g : Grid α) (p : α) : g.flip p p = !g p := Function.update_self ..

theorem flip_of_ne (g : Grid α) (h : q ≠ p) : g.flip p q = g q := Function.update_of_ne h ..

/-- A pixel is changed by an odd number of flips, and by no even one. -/
theorem flips_apply (g : Grid α) (ps : List α) (q : α) : g.flips ps q = (g q ^^ decide (Odd (ps.count q))) := by
  induction ps generalizing g with
  | nil => simp [flips_nil]
  | cons p ps ih =>
    rw [flips_cons, ih]
    by_cases h : p = q
    · subst h
      rw [flip_self, List.count_cons_self]
      by_cases hodd : Odd (ps.count p)
      · have heven : ¬ Odd (ps.count p + 1) := by rw [Nat.odd_add_one]; exact not_not_intro hodd
        simp [hodd, heven]
      · have hodd' : Odd (ps.count p + 1) := Nat.odd_add_one.mpr hodd
        simp [hodd, hodd']
    · rw [flip_of_ne g (Ne.symm h), List.count_cons_of_ne h]

theorem flips_apply_of_not_mem (h : q ∉ ps) : g.flips ps q = g q := by
  rw [flips_apply, List.count_eq_zero_of_not_mem h]
  simp

theorem flips_apply_of_nodup (h : ps.Nodup) (g : Grid α) (q : α) : g.flips ps q = (g q ^^ decide (q ∈ ps)) := by
  rw [flips_apply, h.count]
  by_cases hq : q ∈ ps <;> simp [hq]

theorem flips_comm (g : Grid α) (ps qs : List α) : (g.flips ps).flips qs = (g.flips qs).flips ps := by
  funext q
  simp only [flips_apply]
  rw [Bool.xor_assoc, Bool.xor_assoc, Bool.xor_comm (decide (Odd (ps.count q)))]

theorem flips_flips (g : Grid α) (ps : List α) : (g.flips ps).flips ps = g := by
  funext q
  simp only [flips_apply]
  rw [Bool.xor_assoc, Bool.xor_self, Bool.xor_false]

/-! ### Counting -/

theorem dimmed_append (g : Grid α) (ps qs : List α) : g.dimmed (ps ++ qs) = g.dimmed ps + (g.flips ps).dimmed qs := by
  induction ps generalizing g with
  | nil => rw [List.nil_append, dimmed, flips_nil, Nat.zero_add]
  | cons p ps ih => rw [List.cons_append, dimmed, dimmed, ih, flips_cons, Nat.add_assoc]

/-- Of pixels that are flipped once each, the lit ones are turned off. -/
theorem dimmed_of_nodup (h : ps.Nodup) : g.dimmed ps = ps.countP g := by
  induction ps generalizing g with
  | nil => rfl
  | cons p ps ih =>
    rw [List.nodup_cons] at h
    have hrest : ps.countP (g.flip p) = ps.countP g := by
      refine List.countP_congr fun q hq => ?_
      have hne : q ≠ p := fun heq => h.1 (heq ▸ hq)
      rw [flip_of_ne g hne]
    rw [dimmed, ih h.2, hrest, List.countP_cons, Nat.add_comm]
    cases g p <;> rfl

variable [Fintype α]

def litCount (g : Grid α) : Nat := ∑ p, (g p).toNat

theorem litCount_flip (g : Grid α) (p : α) : (g.flip p).litCount + 2 * (g p).toNat = g.litCount + 1 := by
  have hothers : ∑ q ∈ Finset.univ.erase p, (g.flip p q).toNat = ∑ q ∈ Finset.univ.erase p, (g q).toNat := by
    refine Finset.sum_congr rfl fun q hq => ?_
    rw [flip_of_ne g (Finset.ne_of_mem_erase hq)]
  have hafter := Finset.sum_erase_add Finset.univ (fun q => (g.flip p q).toNat) (Finset.mem_univ p)
  have hbefore := Finset.sum_erase_add Finset.univ (fun q => (g q).toNat) (Finset.mem_univ p)
  rw [litCount, litCount, ← hafter, ← hbefore, hothers, flip_self]
  cases g p <;> rfl

/-- Every flip lights a pixel, but for those that turn one off. -/
theorem litCount_flips (g : Grid α) (ps : List α) :
    (g.flips ps).litCount + 2 * g.dimmed ps = g.litCount + ps.length := by
  induction ps generalizing g with
  | nil => rfl
  | cons p ps ih =>
    have hfirst := g.litCount_flip p
    have hrest := ih (g.flip p)
    rw [flips_cons, dimmed, List.length_cons]
    omega

/-- Flips that are made twice turn off as many pixels as one round of them flips. -/
theorem dimmed_twice (g : Grid α) (ps : List α) : g.dimmed ps + (g.flips ps).dimmed ps = ps.length := by
  have hfirst := g.litCount_flips ps
  have hsecond := (g.flips ps).litCount_flips ps
  rw [flips_flips] at hsecond
  omega

end Grid
end Chip8
