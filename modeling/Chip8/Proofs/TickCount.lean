import Chip8.TickClock
import Mathlib.Algebra.Order.Field.Basic
import Mathlib.Algebra.Order.Floor.Ring
import Mathlib.Data.Rat.Floor

/-! # A tick clock counts the intervals that have passed

`InStep c start d ticks now`: by the time `now` the clock has reported `ticks` ticks, all of them due since `start`, and waits for
the next one. One call keeps this (`InStep.serve`), so a history of calls does whose times never go back (`InStep.serveAll`), and
the number of ticks is then bounded by the number of whole intervals, which a burst of checks reaches (`serveAll_burst`). Times
are exact: any linearly ordered field with a floor will do. -/

namespace Chip8.TickClock
variable {τ : Type} [Field τ] [LinearOrder τ] {c : TickClock τ} {start d now t : τ} {ticks : Nat}

/-- What is asked of a clock at some time. -/
inductive Call (τ : Type)
  | check (now : τ)
  | remaining (now : τ)

def Call.time : Call τ → τ
  | check now => now
  | remaining now => now

inductive Answer (τ : Type)
  | due (b : Bool)
  | left (time : τ)

/-- The answer reports a tick. -/
def Answer.isTick : Answer τ → Bool
  | due b => b
  | left _ => false

def serve (c : TickClock τ) : Call τ → Answer τ × TickClock τ
  | .check now => (.due (c.check now).1, (c.check now).2)
  | .remaining now => (.left (c.remaining now), c)

/-- The answers to calls, each asked of the clock that the one before has left, and the clock after them. -/
def serveAll : TickClock τ → List (Call τ) → List (Answer τ) × TickClock τ
  | c, [] => ([], c)
  | c, q :: qs => ((c.serve q).1 :: (serveAll (c.serve q).2 qs).1, (serveAll (c.serve q).2 qs).2)

/-- How many ticks a clock reports in a history of calls. -/
def ticksIn (c : TickClock τ) (qs : List (Call τ)) : Nat := (c.serveAll qs).1.countP (·.isTick)

theorem ticksIn_cons (c : TickClock τ) (q : Call τ) (qs : List (Call τ)) :
    c.ticksIn (q :: qs) = (if (c.serve q).1.isTick then 1 else 0) + (c.serve q).2.ticksIn qs := by
  rw [ticksIn, serveAll, List.countP_cons, Nat.add_comm]
  rfl

theorem check_of_le (h : c.deadline ≤ now) :
    c.check now = (true, { c with deadline := c.deadline + c.interval }) := if_pos h

theorem check_of_not_le (h : ¬ c.deadline ≤ now) : c.check now = (false, c) := if_neg h

theorem check_eq_true_iff : (c.check now).1 = true ↔ c.deadline ≤ now := by
  by_cases h : c.deadline ≤ now
  · simp only [check_of_le h, h]
  · simp only [check_of_not_le h, h, Bool.false_eq_true]

/-- A check that reports no tick leaves the clock as it was. -/
theorem check_of_idle (h : (c.check now).1 = false) : (c.check now).2 = c := by
  have hlate : ¬ c.deadline ≤ now := by
    rw [← check_eq_true_iff, h]
    exact Bool.false_ne_true
  rw [check_of_not_le hlate]

/-- By the time `now` the clock has reported `ticks` ticks of those that are due every `d` since `start`. -/
structure InStep (c : TickClock τ) (start d : τ) (ticks : Nat) (now : τ) : Prop where
  interval : c.interval = d
  deadline : c.deadline = start + (ticks + 1) * d
  due : start + ticks * d ≤ now

theorem inStep_start (start d : τ) : (TickClock.start d start).InStep start d 0 start where
  interval := rfl
  deadline := by
    rw [Nat.cast_zero, zero_add, one_mul]
    rfl
  due := by rw [Nat.cast_zero, zero_mul, add_zero]

namespace InStep

theorem mono (h : c.InStep start d ticks now) (ht : now ≤ t) : c.InStep start d ticks t :=
  ⟨h.interval, h.deadline, h.due.trans ht⟩

/-- A tick that is due is reported, and the next one is due an interval after it. -/
theorem tick (h : c.InStep start d ticks now) (hle : c.deadline ≤ now) :
    { c with deadline := c.deadline + c.interval : TickClock τ }.InStep start d (ticks + 1) now where
  interval := h.interval
  deadline := by
    show c.deadline + c.interval = _
    rw [h.deadline, h.interval, Nat.cast_succ, add_one_mul ((ticks : τ) + 1) d, add_assoc]
  due := by
    rw [Nat.cast_succ, ← h.deadline]
    exact hle

theorem serve (h : c.InStep start d ticks now) (q : Call τ) (hq : now ≤ q.time) :
    (c.serve q).2.InStep start d (ticks + if (c.serve q).1.isTick then 1 else 0) q.time := by
  cases q with
  | remaining t => exact h.mono hq
  | check t =>
    have hserve : c.serve (.check t) = (.due (c.check t).1, (c.check t).2) := rfl
    rw [hserve]
    by_cases hle : c.deadline ≤ t
    · rw [check_of_le hle]
      exact (h.mono hq).tick hle
    · rw [check_of_not_le hle]
      exact h.mono hq

theorem serveAll (h : c.InStep start d ticks now) (qs : List (Call τ))
    (hqs : (now :: (qs.map Call.time ++ [t])).Pairwise (· ≤ ·)) :
    (c.serveAll qs).2.InStep start d (ticks + c.ticksIn qs) t := by
  induction qs generalizing c ticks now with
  | nil => exact h.mono (List.rel_of_pairwise_cons hqs (List.mem_singleton_self t))
  | cons q qs ih =>
    rw [List.map_cons, List.cons_append] at hqs
    have hq : now ≤ q.time := List.rel_of_pairwise_cons hqs (List.mem_cons_self ..)
    rw [ticksIn_cons, ← Nat.add_assoc]
    exact ih (h.serve q hq) hqs.of_cons

end InStep

/-! ### Whole intervals -/

section
variable [IsStrictOrderedRing τ]

theorem check_eq_true_iff_remaining : (c.check now).1 = true ↔ c.remaining now = 0 := by
  rw [check_eq_true_iff, remaining]
  split
  · rename_i h
    exact iff_of_false (not_le.mpr (sub_pos.mp h)) h.ne'
  · rename_i h
    exact iff_of_true (not_lt.mp (mt sub_pos.mpr h)) rfl

variable [FloorRing τ]

/-- How many whole intervals lie between two times. -/
def wholeIntervals (d start now : τ) : Int := ⌊(now - start) / d⌋

namespace InStep

theorem le_wholeIntervals (h : c.InStep start d ticks now) (hd : 0 < d) : (ticks : Int) ≤ wholeIntervals d start now := by
  rw [wholeIntervals, Int.le_floor, le_div_iff₀ hd, Int.cast_natCast, le_sub_iff_add_le']
  exact h.due

theorem deadline_le_iff (h : c.InStep start d ticks now) (hd : 0 < d) :
    c.deadline ≤ t ↔ (ticks : Int) < wholeIntervals d start t := by
  rw [← Int.add_one_le_iff, wholeIntervals, Int.le_floor, le_div_iff₀ hd, le_sub_iff_add_le', h.deadline]
  push_cast
  rfl

/-- Without a tick that is due, every whole interval has been reported. -/
theorem eq_wholeIntervals (h : c.InStep start d ticks now) (hd : 0 < d) (hidle : (c.check now).1 = false) :
    (ticks : Int) = wholeIntervals d start now := by
  refine le_antisymm (h.le_wholeIntervals hd) (not_lt.mp fun hlt => ?_)
  rw [check_eq_true_iff.mpr ((h.deadline_le_iff hd).mpr hlt)] at hidle
  cases hidle

/-- Checks at one time report the ticks that are missing, and then no more. -/
theorem serveAll_burst (h : c.InStep start d ticks now) (hd : 0 < d) {k : Nat}
    (hk : (ticks : Int) + k = wholeIntervals d start now) :
    (c.serveAll (List.replicate (k + 1) (.check now))).1 = List.replicate k (.due true) ++ [.due false] := by
  induction k generalizing c ticks with
  | zero =>
    have hlate : ¬ c.deadline ≤ now := by
      rw [h.deadline_le_iff hd]
      omega
    have hserve : c.serve (.check now) = (.due false, c) := by rw [TickClock.serve, check_of_not_le hlate]
    rw [List.replicate_one, TickClock.serveAll, hserve]
    rfl
  | succ k ih =>
    have hdue : c.deadline ≤ now := by
      rw [h.deadline_le_iff hd]
      omega
    have hserve : c.serve (.check now) = (.due true, { c with deadline := c.deadline + c.interval }) := by
      rw [TickClock.serve, check_of_le hdue]
    have hrest := ih (h.tick hdue) (show ((ticks + 1 : Nat) : Int) + k = _ by omega)
    rw [List.replicate_succ, TickClock.serveAll, hserve]
    show .due true :: (TickClock.serveAll _ (List.replicate (k + 1) (.check now))).1 = _
    rw [hrest, List.replicate_succ, List.cons_append]

end InStep

/-- However a clock is called at times that never go back, its next tick is due one interval after the last one, it has reported at
most as many ticks as whole intervals have passed, and just as many once a check reports none. Such a check changes nothing, nor
does a look at the remaining time, which is zero when a check would report a tick. Checks at one time report the ticks that are
missing and then no more. -/
theorem ticks_count_intervals (start d t : τ) (hd : 0 < d) (qs : List (Call τ))
    (hqs : (start :: (qs.map Call.time ++ [t])).Pairwise (· ≤ ·)) :
    let started := TickClock.start d start
    let clock := (started.serveAll qs).2
    let ticks := started.ticksIn qs
    clock.deadline = start + (ticks + 1) * d ∧
    (ticks : Int) ≤ wholeIntervals d start t ∧
    ((clock.check t).1 = false → (ticks : Int) = wholeIntervals d start t ∧ (clock.check t).2 = clock) ∧
    (clock.serve (.remaining t)).2 = clock ∧
    ((clock.check t).1 = true ↔ clock.remaining t = 0) ∧
    ∃ k : Nat, (ticks : Int) + k = wholeIntervals d start t ∧
      (clock.serveAll (List.replicate (k + 1) (.check t))).1 = List.replicate k (.due true) ++ [.due false] := by
  intro started clock ticks
  have h : clock.InStep start d ticks t := by
    have hall := (inStep_start start d).serveAll qs hqs
    rwa [Nat.zero_add] at hall
  have hle := h.le_wholeIntervals hd
  obtain ⟨k, hk⟩ := Int.le.dest hle
  exact ⟨h.deadline, hle, fun hidle => ⟨h.eq_wholeIntervals hd hidle, check_of_idle hidle⟩, rfl, check_eq_true_iff_remaining,
    k, hk, h.serveAll_burst hd hk⟩

end

/-- A late caller: a check before the first tick is due, then two at 3½ intervals, of three ticks that are due by then. -/
theorem ticks_count_intervals_late :
    let started := TickClock.start (1 / 10 : ℚ) 100
    let qs : List (Call ℚ) := [.check 100, .remaining (100 + 1 / 20), .check (100 + 7 / 20), .check (100 + 7 / 20)]
    (0 : ℚ) < 1 / 10 ∧ (100 :: (qs.map Call.time ++ [100 + 7 / 20])).Pairwise (· ≤ ·) ∧
      started.ticksIn qs = 2 ∧ (started.serveAll qs).2.deadline = 100 + 3 / 10 ∧
      wholeIntervals (1 / 10) 100 (100 + 7 / 20 : ℚ) = 3 ∧
      ((started.serveAll qs).2.serveAll (List.replicate 2 (.check (100 + 7 / 20)))).1 = [.due true, .due false] := by
  intro started qs
  have hd : (0 : ℚ) < 1 / 10 := by norm_num
  have hqs : (100 :: (qs.map Call.time ++ [100 + 7 / 20])).Pairwise (· ≤ ·) := by decide +kernel
  have hticks : started.ticksIn qs = 2 := by decide +kernel
  have hfloor : wholeIntervals (1 / 10) 100 (100 + 7 / 20 : ℚ) = 3 := by decide +kernel
  obtain ⟨hdeadline, -, -, -, -, k, hk, hburst⟩ := ticks_count_intervals 100 (1 / 10 : ℚ) (100 + 7 / 20) hd qs hqs
  obtain rfl : k = 1 := by
    rw [show (TickClock.start (1 / 10 : ℚ) 100).ticksIn qs = 2 from hticks, hfloor] at hk
    omega
  refine ⟨hd, hqs, hticks, ?_, hfloor, hburst⟩
  rw [hdeadline, hticks]
  norm_num

end Chip8.TickClock
