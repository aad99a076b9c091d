import Chip8.Proofs.Bytes
import Chip8.Proofs.Footprint

/-! # Timers count ticks

Both timers do the same with an operation of their own. A timer is set by that operation and by a reset, to a value that
`sets` gives; a tick takes one from it, down to zero, and nothing else changes it. So after any history a timer is what
it was last set to, less the ticks since (`LastSet`). -/

namespace Chip8

inductive Timer
  | delay
  | sound
deriving DecidableEq

/-- The operation that sets the timer. -/
def Timer.op : Timer → Op
  | delay => .setdt
  | sound => .setst

theorem Timer.op_injective {t t' : Timer} (h : t.op = t'.op) : t = t' := by
  cases t <;> cases t'
  case delay.delay | sound.sound => rfl
  all_goals cases h

namespace Machine
variable {t : Timer} {i : Instruction} {m m' : Machine} {a : MemoryAddress} {e : Event} {es : List Event} {v : UInt8} {n : Nat}

def timer (m : Machine) : Timer → UInt8
  | .delay => m.timers.delay
  | .sound => m.timers.sound

/-- What an event sets a timer to: a reset to zero, and a completed step of its operation to the register that is named. -/
def sets (t : Timer) (m : Machine) : Event → Option UInt8
  | .reset => some 0
  | .step =>
    match m.step with
    | .ok (some i) _ => if i.op = t.op then some (m.registers.read i.x) else none
    | _ => none
  | _ => none

def Spares (t : Timer) (m : Machine) (e : Event) : Prop := sets t m e = none

instance (t : Timer) (m : Machine) (e : Event) : Decidable (Spares t m e) := inferInstanceAs (Decidable (_ = _))

/-- The last event of a history that sets the timer sets it to `v`, and `n` ticks come after it. A history without such an
event counts as one from a timer at zero. -/
inductive LastSet (t : Timer) (m : Machine) : List Event → UInt8 → Nat → Prop
  | never {es : List Event} (h : Throughout (Spares t) m es) : LastSet t m es 0 (es.count .tick)
  | set {past later : List Event} {e : Event} {v : UInt8} (hv : sets t (m.after past) e = some v)
    (h : Throughout (Spares t) ((m.after past).handle e) later) :
    LastSet t m (past ++ e :: later) v (later.count .tick)

theorem exists_lastSet (t : Timer) (m : Machine) (es : List Event) : ∃ v n, LastSet t m es v n := by
  induction es using List.reverseRecOn with
  | nil => exact ⟨0, 0, .never trivial⟩
  | append_singleton es e ih =>
    -- The last event is a setting itself, or one more event after an older one.
    cases hv : sets t (m.after es) e with
    | some v => exact ⟨v, 0, .set hv trivial⟩
    | none =>
      obtain ⟨v, n, h⟩ := ih
      cases h with
      | never h => exact ⟨0, _, .never (throughout_concat.mpr ⟨h, hv⟩)⟩
      | @set past later e' _ hv' h =>
        refine ⟨v, (later ++ [e]).count .tick, ?_⟩
        rw [after_append] at hv
        have hlater : Throughout (Spares t) ((m.after past).handle e') (later ++ [e]) := throughout_concat.mpr ⟨h, hv⟩
        rw [List.append_assoc, List.cons_append]
        exact .set hv' hlater

/-! ### What one event does to a timer -/

theorem sets_step_eq_some : sets t m .step = some v ↔
    ∃ i m', m.step = .ok (some i) m' ∧ i.op = t.op ∧ m.registers.read i.x = v := by
  rw [sets]
  constructor
  · intro h
    split at h
    · rename_i i m' hs
      rw [Option.ite_none_right_eq_some, Option.some_inj] at h
      exact ⟨i, m', hs, h⟩
    · cases h
  · rintro ⟨i, m', hs, hop, hv⟩
    simp only [hs, hop, hv, ↓reduceIte]

theorem sets_step_eq_none : sets t m .step = none ↔ ∀ i m', m.step = .ok (some i) m' → i.op ≠ t.op := by
  rw [sets]
  constructor
  · intro h i m' hs hop
    simp only [hs, hop, ↓reduceIte] at h
    cases h
  · intro h
    split
    · rename_i i m' hs
      exact if_neg (h i m' hs)
    · rfl

theorem Effect.timer_eq (h : Effect i m a m') (hop : i.op ≠ t.op) : m'.timer t = m.timer t := by
  cases t with
  | delay => exact h.delay_eq hop
  | sound => exact h.sound_eq hop

theorem Effect.timer_set (h : Effect i m a m') (hop : i.op = t.op) : m'.timer t = m.registers.read i.x := by
  cases t with
  | delay =>
    obtain ⟨-, rfl⟩ := h.unique (.setdt hop)
    exact ofInt_toNat _
  | sound =>
    obtain ⟨-, rfl⟩ := h.unique (.setst hop)
    exact ofInt_toNat _

theorem timer_handle_of_sets (h : sets t m e = some v) : (m.handle e).timer t = v := by
  cases e with
  | step =>
    obtain ⟨i, m', hs, hop, rfl⟩ := sets_step_eq_some.mp h
    have hs := step_eq_ok.mp hs
    rw [handle, hs.stepped]
    cases hs with
    | executed hi he => exact he.timer_set hop
  | reset =>
    cases h
    cases t <;> rfl
  | _ => cases h

/-- An event that does not set a timer takes one from it if it is a tick, and leaves it alone if not. -/
theorem timer_handle_of_spares (h : Spares t m e) :
    ((m.handle e).timer t).toNat = (m.timer t).toNat - [e].count .tick := by
  cases e with
  | step =>
    have hsets := sets_step_eq_none.mp h
    refine congrArg UInt8.toNat ?_
    refine stepped_cases (motive := fun m' => m'.timer t = m.timer t) m rfl ?_ ?_
    · intro _
      cases t <;> rfl
    · intro i a m' hi he
      have hop := hsets i _ (Step.executed hi he).step
      exact he.timer_eq hop
  | tick =>
    cases t with
    | delay => exact toNat_countDown m.timers.delay
    | sound => exact toNat_countDown m.timers.sound
  | load rom =>
    obtain ⟨notices, hload⟩ := m.exists_load_eq rom
    rw [handle, hload]
    cases t <;> rfl
  | reset => cases h
  | _ => cases t <;> rfl

/-! ### Histories -/

theorem timer_after_of_spares (h : Throughout (Spares t) m es) :
    ((m.after es).timer t).toNat = (m.timer t).toNat - es.count .tick := by
  induction es generalizing m with
  | nil => rfl
  | cons e es ih =>
    obtain ⟨he, hes⟩ := h
    have hrest := ih hes
    have hfirst := timer_handle_of_spares he
    change ((m.after (e :: es)).timer t).toNat = _ at hrest
    have hcount : (e :: es).count .tick = [e].count .tick + es.count .tick := by
      rw [← List.count_append]
      rfl
    rw [hrest, hfirst, hcount, Nat.sub_sub]

theorem LastSet.timer_after (h : LastSet t m es v n) (hm : m.timer t = 0) :
    ((m.after es).timer t).toNat = v.toNat - n := by
  cases h with
  | never h =>
    rw [timer_after_of_spares h, hm]
  | set hv h =>
    have hlater := timer_after_of_spares h
    rw [timer_handle_of_sets hv] at hlater
    rw [after_append]
    exact hlater

theorem timer_reset (t : Timer) (m : Machine) : m.reset.timer t = 0 := by
  cases t <;> rfl

theorem soundActive_iff (t : Timers) : t.soundActive = true ↔ 0 < t.sound.toNat := by
  rw [Timers.soundActive, bne_iff_ne, ne_eq, ← UInt8.toNat_inj, Nat.pos_iff_ne_zero]
  rfl

/-- A step that sets one timer leaves the other alone. -/
theorem sets_other {t' : Timer} (hne : t ≠ t') (h : sets t m .step = some v) :
    sets t' m .step = none ∧ (m.handle .step).timer t' = m.timer t' := by
  obtain ⟨i, m', hs, hop, -⟩ := sets_step_eq_some.mp h
  have hother : sets t' m .step = none := by
    rw [sets_step_eq_none]
    intro j m₁ hj hop'
    rw [hs] at hj
    cases hj
    exact hne (Timer.op_injective (hop.symm.trans hop'))
  exact ⟨hother, UInt8.toNat_inj.mp (timer_handle_of_spares hother)⟩

/-- After a reset and any events, each timer is what it was last set to less the ticks since, and not below zero; a tone
plays while fewer ticks than that came. Reading the delay timer stores just this number, and a step that sets one timer
leaves the other alone. -/
theorem timers_count_ticks (m : Machine) (es : List Event) :
    let now := m.reset.after es
    (∀ t, (∃ v n, LastSet t m.reset es v n) ∧
      ∀ v n, LastSet t m.reset es v n → ((now.timer t).toNat : Int) = max 0 ((v.toNat : Int) - n)) ∧
    (∀ v n, LastSet .sound m.reset es v n → (now.timers.soundActive = true ↔ n < v.toNat)) ∧
    (∀ v n, LastSet .delay m.reset es v n → ∀ i, now.fetched = some i → i.op = .lddt →
      ∃ m', now.step = .ok (some i) m' ∧ ((m'.registers.read i.x).toNat : Int) = max 0 ((v.toNat : Int) - n)) ∧
    ∀ t t' v, t ≠ t' → sets t now .step = some v →
      sets t' now .step = none ∧ (now.handle .step).timer t' = now.timer t' := by
  intro now
  have hvalue (t : Timer) (v : UInt8) (n : Nat) (h : LastSet t m.reset es v n) :
      ((now.timer t).toNat : Int) = max 0 ((v.toNat : Int) - n) := by
    have hafter := h.timer_after (timer_reset t m)
    change (now.timer t).toNat = v.toNat - n at hafter
    omega
  refine ⟨fun t => ⟨exists_lastSet t m.reset es, hvalue t⟩, ?_, ?_, ?_⟩
  · intro v n h
    have hsound := hvalue .sound v n h
    change (now.timers.sound.toNat : Int) = _ at hsound
    rw [soundActive_iff]
    omega
  · intro v n h i hi hop
    refine ⟨_, (Step.executed hi (.lddt hop)).step, ?_⟩
    change (((now.registers.put i.x now.timers.delay).read i.x).toNat : Int) = _
    rw [Registers.read_put_self]
    exact hvalue .delay v n h
  · intro t t' v hne h
    exact sets_other hne h

/-- A program that sets the delay timer to 3 and the sound timer to 2, and reads the delay timer. -/
def setBothTimers : List UInt8 := [0x60, 0x03, 0xF0, 0x15, 0x61, 0x02, 0xF1, 0x18, 0xF2, 0x07]

/-- One tick after the delay timer of `setBothTimers` was set, and another after both were. -/
theorem timers_count_ticks_set_both :
    let start := (blank .released (.ofScript #[])).reset
    let es : List Event := [.load setBothTimers, .step, .step, .tick, .step, .step, .press 3, .tick]
    let i : Instruction := { op := .lddt, word := 0xF207, x := 2 }
    LastSet .delay start es 3 2 ∧ LastSet .sound start es 2 1 ∧ (start.after es).fetched = some i ∧
      (start.after es).timers.soundActive = true ∧
      (∃ m', (start.after es).step = .ok (some i) m' ∧ ((m'.registers.read 2).toNat : Int) = 1) ∧
      sets .delay (start.after [.load setBothTimers, .step]) .step = some 3 ∧
      sets .sound (start.after [.load setBothTimers, .step]) .step = none := by
  intro start es i
  obtain ⟨hset, hlater, hset', hlater', hi⟩ : sets .delay (start.after [.load setBothTimers, .step]) .step = some 3 ∧
      Throughout (Spares .delay) (start.after [.load setBothTimers, .step, .step])
        [.tick, .step, .step, .press 3, .tick] ∧
      sets .sound (start.after [.load setBothTimers, .step, .step, .tick, .step]) .step = some 2 ∧
      Throughout (Spares .sound) (start.after [.load setBothTimers, .step, .step, .tick, .step, .step])
        [.press 3, .tick] ∧
      (start.after es).fetched = some i := by
    decide +kernel
  have hdelay : LastSet .delay start ([.load setBothTimers, .step] ++ .step :: [.tick, .step, .step, .press 3, .tick]) 3 2 :=
    .set hset hlater
  have hsound : LastSet .sound start
      ([.load setBothTimers, .step, .step, .tick, .step] ++ .step :: [.press 3, .tick]) 2 1 :=
    .set hset' hlater'
  obtain ⟨-, hplays, hread, -⟩ := timers_count_ticks (blank .released (.ofScript #[])) es
  obtain ⟨m', hstep, hvalue⟩ := hread 3 2 hdelay i hi rfl
  obtain ⟨-, -, -, hother⟩ := timers_count_ticks (blank .released (.ofScript #[])) [.load setBothTimers, .step]
  exact ⟨hdelay, hsound, hi, (hplays 2 1 hsound).mpr (by decide), ⟨m', hstep, hvalue⟩, hset,
    (hother .delay .sound 3 (by decide) hset).1⟩

end Machine
end Chip8
