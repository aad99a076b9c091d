import Chip8.Proofs.Pacing

/-! # Runs one after the other

The history of a run is a number of batches, each with a tick at its end, and the steps that are left over (`paced_eq_batches`).
So whole batches may be made as a run of their own: a run of them and a run of the other steps are the run of all steps
(`runs_compose`). -/

namespace Chip8.Machine
variable {m m' : Machine} {k : Int} {n size : Nat} {f : Fault}

/-- Steps with a tick after the last of them. -/
def batch (size : Nat) : List Event := List.replicate size .step ++ [.tick]

theorem paced_add {first : Nat} (h : k ≤ 0 ∨ k ∣ (first : Int)) (next : Nat) :
    paced k (first + next) = paced k first ++ paced k next := by
  induction next with
  | zero => exact (List.append_nil _).symm
  | succ next ih =>
    rw [Nat.add_succ, paced_succ, paced_succ, ih, List.append_assoc, Nat.add_assoc]
    simp only [tickDue_add h]

/-- A history in which no tick is due is made of steps only. -/
theorem paced_of_not_due (h : ∀ j, 1 ≤ j → j ≤ n → ¬ TickDue k j) : paced k n = List.replicate n .step := by
  induction n with
  | zero => rfl
  | succ n ih =>
    have hdue : ¬ TickDue k (n + 1) := h (n + 1) (Nat.succ_pos n) (Nat.le_refl _)
    rw [paced_succ, ih fun j hj hle => h j hj (Nat.le_succ_of_le hle), if_neg hdue, List.replicate_succ']

theorem paced_of_nonpos (hk : k ≤ 0) (n : Nat) : paced k n = List.replicate n .step :=
  paced_of_not_due fun _ _ _ hdue => absurd hdue.1 (Int.not_lt.mpr hk)

/-- Before the first batch is complete no tick is due. -/
theorem paced_of_lt (h : n < size) : paced size n = List.replicate n .step := by
  refine paced_of_not_due fun j hj hle => ?_
  rw [tickDue_iff (Nat.zero_lt_of_lt h)]
  exact fun hdvd => absurd (Nat.le_of_dvd hj hdvd) (by omega)

theorem paced_self (hsize : 0 < size) : paced size size = batch size := by
  obtain ⟨inner, rfl⟩ : ∃ inner, size = inner + 1 := ⟨size - 1, by omega⟩
  have hdue : TickDue (inner + 1 : Nat) (inner + 1) := (tickDue_iff hsize).mpr (Nat.dvd_refl _)
  rw [paced_succ, paced_of_lt (Nat.lt_succ_self inner), if_pos hdue, batch, List.replicate_succ', List.append_assoc,
    List.singleton_append]

theorem paced_mul (hsize : 0 < size) (q : Nat) : paced size (size * q) = (List.replicate q (batch size)).flatten := by
  induction q with
  | zero => rfl
  | succ q ih =>
    have hdvd : (size : Int) ∣ size := Int.dvd_refl _
    rw [Nat.mul_succ, Nat.add_comm, paced_add (.inr hdvd), paced_self hsize, ih, List.replicate_succ, List.flatten_cons]

/-- All whole batches, and then the steps that are left over. -/
theorem paced_eq_batches (hsize : 0 < size) (n : Nat) :
    paced size n = (List.replicate (n / size) (batch size)).flatten ++ List.replicate (n % size) .step := by
  have hdvd : (size : Int) ∣ (size * (n / size) : Nat) := Int.natCast_dvd_natCast.mpr ⟨_, rfl⟩
  calc paced size n = paced size (size * (n / size) + n % size) := by rw [Nat.div_add_mod]
    _ = paced size (size * (n / size)) ++ paced size (n % size) := paced_add (.inr hdvd) _
    _ = _ := by rw [paced_mul hsize, paced_of_lt (Nat.mod_lt n hsize)]

theorem count_step_paced (k : Int) (n : Nat) : (paced k n).count .step = n := by
  induction n with
  | zero => rfl
  | succ n ih =>
    rw [paced_succ, List.count_append, ih, List.count_cons_self]
    split <;> rfl

theorem count_tick_batch (size : Nat) : (batch size).count .tick = 1 := by
  rw [batch, List.count_append, List.count_replicate]
  rfl

theorem count_tick_paced (hsize : 0 < size) (n : Nat) : (paced size n).count .tick = n / size := by
  have hrest : (List.replicate (n % size) Event.step).count .tick = 0 := by
    rw [List.count_replicate]
    rfl
  rw [paced_eq_batches hsize, List.count_append, hrest, List.count_flatten, List.map_replicate, count_tick_batch,
    List.sum_replicate_nat, Nat.mul_one, Nat.add_zero]

/-- A run that fails has made the run up to the failing step, which it leaves with its ticks and no others. -/
theorem run_eq_error_iff_of_step :
    m.run n k = .error f m' ↔ ∃ j < n, m.run j k = .ok () m' ∧ m'.step = .error f m' := by
  simp only [run_eq_error_iff, run_eq_ok_iff, and_assoc]

/-- A run completes if its steps do. It is then the history of as many steps: without ticks if no cycles of a tick are set, and
else in batches, with a tick at the end of each. Whole batches, and steps without ticks, may be run in advance. A run fails at the
first step that fails, in the machine that a run of the steps before it leaves. -/
theorem runs_compose (m : Machine) (k : Int) :
    (∀ (n : Nat) m', m.run n k = .ok () m' ↔ m.Completes k n ∧ m' = m.after (paced k n)) ∧
    (∀ n, (paced k n).count .step = n ∧ (k ≤ 0 → paced k n = List.replicate n .step)) ∧
    (1 ≤ k → ∀ n, (paced k n).count .tick = n / k.toNat ∧
      paced k n = (List.replicate (n / k.toNat) (batch k.toNat)).flatten ++ List.replicate (n % k.toNat) .step) ∧
    (∀ first next : Nat, k ≤ 0 ∨ k ∣ first → (do run first k; run next k : Action Unit) m = m.run (first + next) k) ∧
    ∀ (n : Nat) f m', m.run n k = .error f m' ↔ ∃ j < n, m.run j k = .ok () m' ∧ m'.step = .error f m' := by
  refine ⟨fun n m' => run_eq_ok_iff, fun n => ⟨count_step_paced k n, fun hk => paced_of_nonpos hk n⟩, ?_,
    fun first next h => ?_, fun n f m' => run_eq_error_iff_of_step⟩
  · intro hk n
    obtain ⟨size, rfl⟩ : ∃ size : Nat, k = size := ⟨k.toNat, by omega⟩
    have hsize : 0 < size := by omega
    exact ⟨count_tick_paced hsize n, paced_eq_batches hsize n⟩
  · rw [← Int.natCast_add, run_add h]

/-- A routine that calls itself without end. -/
def endlessCall : Machine := ((new .released (.ofScript #[])).load [0x22, 0x00]).2

/-- Two batches of `endlessCall` and then more are the run of all: it fails at the seventeenth step, after the ticks of five
batches. -/
theorem runs_compose_endless_call :
    (3 : Int) ∣ (6 : Nat) ∧ (do run (6 : Nat) 3; run (20 : Nat) 3 : Action Unit) endlessCall = endlessCall.run 26 3 ∧
      (∃ f m', endlessCall.run 16 3 = .ok () m' ∧ endlessCall.run 26 3 = .error f m') ∧
      (paced 3 16).count .tick = 5 ∧ paced 3 16 = (List.replicate 5 (batch 3)).flatten ++ [.step] := by
  obtain ⟨-, -, hbatches, hadd, herror⟩ := runs_compose endlessCall 3
  have hdvd : (3 : Int) ∣ (6 : Nat) := ⟨2, rfl⟩
  have hcall : (match endlessCall.run 16 3 with
      | .ok _ m' => decide (m'.fetched = some { op := .call, word := 0x2200, addr := 0x200 } ∧ m'.stack.depth = 16)
      | .error _ _ => false) = true := by
    decide +kernel
  refine ⟨hdvd, hadd 6 20 (.inr hdvd), ?_, hbatches (by decide) 16⟩
  cases hrun : endlessCall.run 16 3 with
  | error f m' =>
    rw [hrun] at hcall
    cases hcall
  | ok _ m' =>
    rw [hrun] at hcall
    obtain ⟨hi, hd⟩ := of_decide_eq_true hcall
    have hfull : m'.FailsOnStack := ⟨_, hi, .inl ⟨rfl, hd⟩⟩
    obtain ⟨f, hstep⟩ := hfull.step
    exact ⟨f, m', rfl, (herror 26 f m').mpr ⟨16, by decide, hrun, hstep⟩⟩

end Chip8.Machine
