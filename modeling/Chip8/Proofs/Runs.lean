import Chip8.Machine.Run

/-! # Runs

A run is cut in two at any step (`runFrom_add`). Ticks come at the multiples of the cycles of a tick, so after whole batches the
rest is a run by itself (`run_add`), and a run of a number of batches is a batch without ticks, one tick, and a run of the other
batches (`run_batches`). -/

namespace Chip8.Machine
variable {k k' : Int} {made made' left : Nat} {m m' : Machine}

/-- A tick is due when `made` steps are made. -/
def TickDue (k : Int) (made : Nat) : Prop := 0 < k ∧ (made : Int) % k = 0

instance (k : Int) (made : Nat) : Decidable (TickDue k made) := inferInstanceAs (Decidable (_ ∧ _))

/-- The tick after `made` steps, if one is due. -/
def tickIfDue (k : Int) (made : Nat) : Action Unit := if TickDue k made then modify fun m => m.tick.2 else pure ()

theorem tickIfDue_of_not (h : ¬ TickDue k made) : tickIfDue k made = pure () := if_neg h

theorem bind_of_ok {α β : Type} {x : Action α} {g : α → Action β} {v : α} {m m' : Machine} (h : x m = .ok v m') :
    (x >>= g) m = g v m' := by
  simp only [bind, EStateM.bind, h]

theorem bind_of_error {α β : Type} {x : Action α} {g : α → Action β} {f : Fault} {m m' : Machine}
    (h : x m = .error f m') : (x >>= g) m = .error f m' := by
  simp only [bind, EStateM.bind, h]

theorem runFrom_zero (k : Int) (made : Nat) : runFrom k made 0 = pure () := rfl

theorem runFrom_succ (k : Int) (made left : Nat) : runFrom k made (left + 1) = (do
    let _ ← step
    tickIfDue k (made + 1)
    runFrom k (made + 1) left) := by
  rw [runFrom]
  refine congrArg (step >>= ·) (funext fun _ => ?_)
  by_cases h : TickDue k (made + 1)
  · have h' : 0 < k ∧ ((made + 1 : Nat) : Int) % k = 0 := h
    rw [tickIfDue, if_pos h, if_pos h']
  · have h' : ¬ (0 < k ∧ ((made + 1 : Nat) : Int) % k = 0) := h
    rw [tickIfDue, if_neg h, if_neg h', pure_bind]

theorem runFrom_one (k : Int) (made : Nat) : runFrom k made 1 = (do
    let _ ← step
    tickIfDue k (made + 1)) := by
  rw [runFrom_succ]
  simp only [runFrom_zero, bind_pure_unit]

theorem runFrom_add (k : Int) (made a b : Nat) : runFrom k made (a + b) = (do
    runFrom k made a
    runFrom k (made + a) b) := by
  induction a generalizing made with
  | zero => rw [Nat.zero_add, runFrom_zero, pure_bind, Nat.add_zero]
  | succ a ih =>
    rw [show a + 1 + b = a + b + 1 by omega, runFrom_succ, runFrom_succ, ih, show made + 1 + a = made + (a + 1) by omega]
    simp only [bind_assoc]

/-- Runs of equally many steps are the same if their ticks come at the same steps. -/
theorem runFrom_congr (h : ∀ j, 1 ≤ j → j ≤ left → (TickDue k (made + j) ↔ TickDue k' (made' + j))) :
    runFrom k made left = runFrom k' made' left := by
  induction left generalizing made made' with
  | zero => rfl
  | succ left ih =>
    have htick : tickIfDue k (made + 1) = tickIfDue k' (made' + 1) := by
      simp only [tickIfDue, h 1 (Nat.le_refl 1) (by omega)]
    have hrest : runFrom k (made + 1) left = runFrom k' (made' + 1) left := by
      refine ih fun j hj hle => ?_
      rw [Nat.add_assoc, Nat.add_assoc]
      exact h (1 + j) (by omega) (by omega)
    rw [runFrom_succ, runFrom_succ, htick, hrest]

theorem not_tickDue_zero (made : Nat) : ¬ TickDue 0 made := fun h => absurd h.1 (by decide)

theorem tickDue_iff {n : Nat} (hn : 0 < n) : TickDue n made ↔ n ∣ made := by
  rw [TickDue, Nat.dvd_iff_mod_eq_zero]
  omega

theorem run_natCast (n : Nat) (k : Int) : run n k = runFrom k 0 n := rfl

theorem run_succ (n : Nat) (k : Int) : run (n + 1 : Nat) k = (do
    run n k
    let _ ← step
    tickIfDue k (n + 1)) := by
  rw [run_natCast, run_natCast, runFrom_add, runFrom_one, Nat.zero_add]

/-- What every step keeps, and every tick if there are any, a completed run keeps. -/
theorem run_preserves {P : Machine → Prop} {n : Nat} (hstep : ∀ m r m', P m → m.step = .ok r m' → P m')
    (htick : 0 < k → ∀ m, P m → P m.tick.2) (hm : P m) (h : m.run n k = .ok () m') : P m' := by
  induction n generalizing m' with
  | zero =>
    cases h
    exact hm
  | succ n ih =>
    rw [run_succ] at h
    cases hn : m.run n k with
    | error f m₁ =>
      rw [bind_of_error hn] at h
      cases h
    | ok _ m₁ =>
      rw [bind_of_ok hn] at h
      cases hs : m₁.step with
      | error f m₂ =>
        rw [bind_of_error hs] at h
        cases h
      | ok r m₂ =>
        rw [bind_of_ok hs] at h
        have hm₂ : P m₂ := hstep m₁ r m₂ (ih hn) hs
        by_cases hdue : TickDue k (n + 1)
        · rw [tickIfDue, if_pos hdue] at h
          cases h
          exact htick hdue.1 m₂ hm₂
        · rw [tickIfDue_of_not hdue] at h
          cases h
          exact hm₂

/-- Steps that a number of whole batches come before have their ticks where they would have them alone. -/
theorem tickDue_add (h : k ≤ 0 ∨ k ∣ (made : Int)) (j : Nat) : TickDue k (made + j) ↔ TickDue k j := by
  rcases h with h | h
  · exact iff_of_false (fun hdue => absurd hdue.1 (by omega)) fun hdue => absurd hdue.1 (by omega)
  · refine and_congr_right fun _ => ?_
    rw [Int.natCast_add, Int.add_emod, Int.emod_eq_zero_of_dvd h, Int.zero_add, Int.emod_emod]

/-- A run after whole batches, or without any ticks, goes on with the run before it. -/
theorem run_add {first : Nat} (h : k ≤ 0 ∨ k ∣ (first : Int)) (next : Nat) : run (first + next : Nat) k = (do
    run first k
    run next k) := by
  have hnext : runFrom k (0 + first) next = runFrom k 0 next := by
    refine runFrom_congr fun j _ _ => ?_
    rw [Nat.zero_add, Nat.zero_add]
    exact tickDue_add h j
  rw [run_natCast, run_natCast, run_natCast, runFrom_add, hnext]

/-- The first of a number of batches, which has its tick at its end, and then the others. -/
theorem run_batches {size : Nat} (hsize : 0 < size) (n : Nat) : run ((n + 1) * size : Nat) size = (do
    run size 0
    modify fun m => m.tick.2
    run (n * size : Nat) size) := by
  obtain ⟨inner, rfl⟩ : ∃ inner, size = inner + 1 := ⟨size - 1, by omega⟩
  -- Within the batch the only multiple of its size is the size itself.
  have hquiet : runFrom ((inner + 1 : Nat) : Int) 0 inner = runFrom 0 0 inner := by
    refine runFrom_congr fun j hj hle => ?_
    rw [tickDue_iff hsize, Nat.zero_add]
    exact ⟨fun h => absurd (Nat.le_of_dvd hj h) (by omega), fun h => absurd h (not_tickDue_zero j)⟩
  have hdue : tickIfDue ((inner + 1 : Nat) : Int) (0 + inner + 1) = modify fun m => m.tick.2 :=
    if_pos ((tickDue_iff hsize).mpr ⟨1, by omega⟩)
  have hsplit : (n + 1) * (inner + 1) = inner + 1 + n * (inner + 1) := (Nat.succ_mul n _).trans (Nat.add_comm _ _)
  rw [hsplit, run_add (.inr (Int.dvd_refl _)), run_natCast, run_natCast, run_natCast, runFrom_add, runFrom_add 0, runFrom_one,
    runFrom_one, hquiet, hdue, tickIfDue_of_not (not_tickDue_zero _)]
  simp only [bind_assoc, pure_bind]

end Chip8.Machine
