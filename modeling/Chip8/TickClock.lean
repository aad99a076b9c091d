/-! # Tick clock

Tells when the next tick is due. Each reported tick moves the deadline on by one interval, so a late caller catches
up tick by tick. Readings may be of any number type. -/

namespace Chip8

structure TickClock (τ : Type) where
  interval : τ
  deadline : τ

namespace TickClock
variable {τ : Type}

/-- A clock whose first tick is due one interval after `now`. -/
def start [Add τ] (interval now : τ) : TickClock τ := ⟨interval, now + interval⟩

/-- True if a tick is due at `now`; that tick is then used up. -/
def check [Add τ] [LE τ] [DecidableLE τ] (c : TickClock τ) (now : τ) : Bool × TickClock τ :=
  if c.deadline ≤ now then (true, { c with deadline := c.deadline + c.interval }) else (false, c)

/-- The time until the next tick, zero if it is due. -/
def remaining [Sub τ] [LT τ] [DecidableLT τ] [OfNat τ 0] (c : TickClock τ) (now : τ) : τ :=
  if 0 < c.deadline - now then c.deadline - now else 0

end TickClock
end Chip8
