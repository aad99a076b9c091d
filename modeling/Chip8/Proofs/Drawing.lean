import Chip8.Proofs.History

/-! # Writing the screen and the memory

Only clearing and drawing write the screen, and both copy it into the display window at once. Any other instruction
leaves the screen alone and stores `storedBytes` from the index register on, which are none but for two operations. -/

namespace Chip8.Machine
variable {i : Instruction} {m m' : Machine} {a : MemoryAddress} {e : Event}

/-- The event is a step that clears the screen or draws on it. -/
def Draws (m : Machine) (e : Event) : Prop :=
  e = .step ∧ ∃ i, m.fetched = some i ∧ (i.op = .cls ∨ i.op = .drw)

/-- The event is a step that stores at the address `a`. -/
def StoresAt (a : Nat) (m : Machine) (e : Event) : Prop :=
  e = .step ∧ ∃ i, m.fetched = some i ∧ m.registers.index ≤ a ∧ a < m.registers.index + storeCount i

theorem Effect.unique {a₁ : MemoryAddress} {m₁ : Machine} (h : Effect i m a m') (h₁ : Effect i m a₁ m₁) :
    a₁ = a ∧ m₁ = m' := by
  have heq := h₁.execute.symm.trans h.execute
  cases heq
  exact ⟨rfl, rfl⟩

/-- Clearing and drawing leave the screen marked as written and copied into the display window. -/
theorem Effect.of_draws (h : Effect i m a m') (hop : i.op = .cls ∨ i.op = .drw) :
    m'.screen.dirty = true ∧ m'.memory = m.memory.writeDisplayBlock m'.screen.packed := by
  rcases hop with hop | hop
  · obtain ⟨-, rfl⟩ := h.unique (.cls hop)
    exact ⟨rfl, rfl⟩
  · obtain ⟨-, rfl⟩ := h.unique (.drw hop)
    exact ⟨rfl, rfl⟩

theorem Effect.screen_eq (h : Effect i m a m') (hop : ¬ (i.op = .cls ∨ i.op = .drw)) : m'.screen = m.screen := by
  cases h with
  | cls h => exact absurd (.inl h) hop
  | drw h => exact absurd (.inr h) hop
  | _ => rfl

theorem storedBytes_eq_nil (h : ¬ (i.op = .ldbcd ∨ i.op = .dump)) : storedBytes i m = [] := by
  unfold storedBytes
  split
  · exact absurd (.inl ‹_›) h
  · exact absurd (.inr ‹_›) h
  · rfl

theorem Effect.memory_eq (h : Effect i m a m') (hop : ¬ (i.op = .cls ∨ i.op = .drw)) :
    m'.memory = m.memory.writeBlock m.registers.index (storedBytes i m) := by
  by_cases hs : i.op = .ldbcd ∨ i.op = .dump
  · obtain ⟨-, rfl⟩ := h.unique (.store hs)
    rfl
  · rw [storedBytes_eq_nil hs]
    cases h with
    | cls h => exact absurd (.inl h) hop
    | drw h => exact absurd (.inr h) hop
    | store h => exact absurd h hs
    | _ => rfl

/-- A step that clears or draws marks the screen as written and copies it into the display window. -/
theorem stepped_of_draws (h : Draws m .step) :
    m.stepped.screen.dirty = true ∧ m.stepped.memory = m.memory.writeDisplayBlock m.stepped.screen.packed := by
  obtain ⟨-, i, hi, hop⟩ := h
  have he : ∃ a m', Effect i m a m' := by
    rcases hop with hop | hop
    · exact ⟨_, _, .cls hop⟩
    · exact ⟨_, _, .drw hop⟩
  obtain ⟨a, m', he⟩ := he
  rw [(Step.executed hi he).stepped]
  exact he.of_draws hop

theorem screen_stepped (h : ¬ Draws m .step) : m.stepped.screen = m.screen := by
  refine stepped_cases m rfl (fun _ => rfl) fun i a m' hi he => ?_
  exact he.screen_eq fun hop => h ⟨rfl, i, hi, hop⟩

theorem screen_load (m : Machine) (rom : List UInt8) : (m.load rom).2.screen = m.screen := by
  obtain ⟨notices, h⟩ := m.exists_load_eq rom
  rw [h]

/-- The screen is written by clearing, drawing and a reset only; a tick takes its mark away. -/
theorem screen_handle (hd : ¬ Draws m e) (hr : e ≠ .reset) (ht : e ≠ .tick) : (m.handle e).screen = m.screen := by
  cases e with
  | load rom => exact screen_load m rom
  | step => exact screen_stepped hd
  | tick => exact absurd rfl ht
  | reset => exact absurd rfl hr
  | _ => rfl

theorem rows_handle (hd : ¬ Draws m e) (hr : e ≠ .reset) : (m.handle e).screen.rows = m.screen.rows := by
  by_cases ht : e = .tick
  · subst ht; rfl
  · rw [screen_handle hd hr ht]

end Chip8.Machine
