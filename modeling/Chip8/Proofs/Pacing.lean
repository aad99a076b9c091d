import Chip8.Proofs.History
import Chip8.Proofs.Runs

/-! # Runs as histories

`paced k n` is the history of `n` steps with a tick after every `k`-th. A run goes through it until a step fails
(`run_cases`), so the machine that a run leaves is the one after a history, and what a run of some length leaves by a failure a
longer run leaves too. -/

namespace Chip8.Machine
variable {m m' : Machine} {k : Int} {n j : Nat} {f : Fault}

/-- `n` steps, with a tick after every `k`-th of them if `k` is positive. -/
def paced (k : Int) : Nat → List Event
  | 0 => []
  | n + 1 => paced k n ++ .step :: if TickDue k (n + 1) then [.tick] else []

theorem paced_succ (k : Int) (n : Nat) :
    paced k (n + 1) = paced k n ++ .step :: if TickDue k (n + 1) then [.tick] else [] := rfl

/-- The first `n` steps of a paced history complete. -/
def Completes (m : Machine) (k : Int) (n : Nat) : Prop := ∀ j < n, ∃ r m', (m.after (paced k j)).step = .ok r m'

theorem completes_zero (m : Machine) (k : Int) : m.Completes k 0 := fun _ h => absurd h (Nat.not_lt_zero _)

theorem Completes.mono (h : m.Completes k n) (hj : j ≤ n) : m.Completes k j := fun i hi => h i (Nat.lt_of_lt_of_le hi hj)

theorem completes_succ : m.Completes k (n + 1) ↔ m.Completes k n ∧ ∃ r m', (m.after (paced k n)).step = .ok r m' := by
  constructor
  · exact fun h => ⟨h.mono (Nat.le_succ n), h n (Nat.lt_succ_self n)⟩
  · rintro ⟨h, hn⟩ j hj
    rcases Nat.lt_succ_iff_lt_or_eq.mp hj with hlt | rfl
    · exact h j hlt
    · exact hn

/-- Up to a step that fails, no more steps complete. -/
theorem Completes.le_of_fails (h : m.Completes k n) (hf : (m.after (paced k j)).step = .error f m') : n ≤ j := by
  refine Nat.le_of_not_lt fun hj => ?_
  obtain ⟨r, m₁, hok⟩ := h j hj
  rw [hf] at hok
  cases hok

theorem after_paced_succ (m : Machine) (k : Int) (n : Nat) :
    m.after (paced k (n + 1)) = (m.after (paced k n)).stepped.after (if TickDue k (n + 1) then [.tick] else []) := by
  rw [paced_succ, after_append]
  rfl

theorem tickIfDue_eq (k : Int) (n : Nat) (m : Machine) :
    tickIfDue k n m = .ok () (m.after (if TickDue k n then [.tick] else [])) := by
  unfold tickIfDue
  split
  · rfl
  · rfl

/-- A run makes all its steps, or the first that fails ends it. -/
theorem run_cases (m : Machine) (k : Int) (n : Nat) :
    (m.Completes k n ∧ m.run n k = .ok () (m.after (paced k n))) ∨
    ∃ j f, j < n ∧ m.Completes k j ∧ (m.after (paced k j)).step = .error f (m.after (paced k j)) ∧
      m.run n k = .error f (m.after (paced k j)) := by
  induction n with
  | zero => exact .inl ⟨completes_zero m k, rfl⟩
  | succ n ih =>
    rw [run_succ]
    rcases ih with ⟨hc, hrun⟩ | ⟨j, f, hj, hc, hstep, hrun⟩
    · rw [bind_of_ok hrun]
      rcases step_or_refusal (m.after (paced k n)) with ⟨r, m', hs⟩ | ⟨i, f, hi, hf⟩
      · refine .inl ⟨completes_succ.mpr ⟨hc, r, m', hs.step⟩, ?_⟩
        rw [bind_of_ok hs.step, tickIfDue_eq, after_paced_succ, hs.stepped]
      · have hstep := step_of_refusal hi hf
        exact .inr ⟨n, f, Nat.lt_succ_self n, hc, hstep, bind_of_error hstep⟩
    · exact .inr ⟨j, f, Nat.lt_succ_of_lt hj, hc, hstep, bind_of_error hrun⟩

theorem run_eq_ok_iff : m.run n k = .ok () m' ↔ m.Completes k n ∧ m' = m.after (paced k n) := by
  constructor
  · intro h
    rcases run_cases m k n with ⟨hc, hrun⟩ | ⟨j, f, -, -, -, hrun⟩
    · rw [hrun] at h
      cases h
      exact ⟨hc, rfl⟩
    · rw [hrun] at h
      cases h
  · rintro ⟨hc, rfl⟩
    rcases run_cases m k n with ⟨-, hrun⟩ | ⟨j, f, hj, -, hfail, -⟩
    · exact hrun
    · exact absurd (hc.le_of_fails hfail) (Nat.not_le_of_lt hj)

theorem run_eq_error_iff : m.run n k = .error f m' ↔
    ∃ j < n, m.Completes k j ∧ m' = m.after (paced k j) ∧ m'.step = .error f m' := by
  constructor
  · intro h
    rcases run_cases m k n with ⟨-, hrun⟩ | ⟨j, f', hj, hc, hfail, hrun⟩
    · rw [hrun] at h
      cases h
    · rw [hrun] at h
      cases h
      exact ⟨j, hj, hc, rfl, hfail⟩
  · rintro ⟨j, hj, hc, rfl, hfail⟩
    rcases run_cases m k n with ⟨hall, -⟩ | ⟨j', f', -, hc', hfail', hrun⟩
    · exact absurd (hall.le_of_fails hfail) (Nat.not_le_of_lt hj)
    · -- Both are the first step that fails.
      obtain rfl : j = j' := Nat.le_antisymm (hc.le_of_fails hfail') (hc'.le_of_fails hfail)
      rw [hfail] at hfail'
      cases hfail'
      exact hrun

/-- A longer run fails as the shorter one did. -/
theorem run_error_mono {n' : Nat} (h : m.run n k = .error f m') (hn : n ≤ n') : m.run n' k = .error f m' := by
  obtain ⟨j, hj, hrest⟩ := run_eq_error_iff.mp h
  exact run_eq_error_iff.mpr ⟨j, Nat.lt_of_lt_of_le hj hn, hrest⟩

/-- The next step is a call on a full stack or a return on an empty one. -/
def FailsOnStack (m : Machine) : Prop :=
  ∃ i, m.fetched = some i ∧ (i.op = .call ∧ m.stack.depth = 16 ∨ i.op = .ret ∧ m.stack.depth = 0)

theorem failsOnStack_of_step (h : m.step = .error f m') : m.FailsOnStack ∧ f.isStackFault = true := by
  obtain ⟨-, i, hi, hf⟩ := step_eq_error.mp h
  rcases (refusal_of_fetched hi).mp hf with ⟨hop, hd, rfl⟩ | ⟨hop, hd, rfl⟩
  · exact ⟨⟨i, hi, .inl ⟨hop, hd⟩⟩, rfl⟩
  · exact ⟨⟨i, hi, .inr ⟨hop, hd⟩⟩, rfl⟩

theorem FailsOnStack.step (h : m.FailsOnStack) : ∃ f, m.step = .error f m := by
  obtain ⟨i, hi, ⟨hop, hd⟩ | ⟨hop, hd⟩⟩ := h
  · exact ⟨_, step_of_refusal hi (.full hop hd)⟩
  · exact ⟨_, step_of_refusal hi (.empty hop hd)⟩

theorem FailsOnStack.run (hf : (m.after (paced k j)).FailsOnStack) (hc : m.Completes k j) (hj : j < n) :
    ∃ f, m.run n k = .error f (m.after (paced k j)) ∧ f.isStackFault = true := by
  obtain ⟨f, hstep⟩ := hf.step
  exact ⟨f, run_eq_error_iff.mpr ⟨j, hj, hc, rfl, hstep⟩, (failsOnStack_of_step hstep).2⟩

end Chip8.Machine
