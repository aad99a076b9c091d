/-! # Timers

Two bytes that count down to zero, one a tick. The sound timer plays a tone while it runs. -/

namespace Chip8

structure Timers where
  delay : UInt8
  sound : UInt8
deriving DecidableEq

namespace Timers

/-- Ticks a second. -/
def rate : Float := 60

def blank : Timers := ⟨0, 0⟩

def setDelay (t : Timers) (n : Int) : Timers := { t with delay := UInt8.ofInt n }

def setSound (t : Timers) (n : Int) : Timers := { t with sound := UInt8.ofInt n }

def countDown (b : UInt8) : UInt8 := if b = 0 then 0 else b - 1

def tick (t : Timers) : Timers := ⟨countDown t.delay, countDown t.sound⟩

def soundActive (t : Timers) : Bool := t.sound != 0

end Timers

theorem toNat_countDown (b : UInt8) : (Timers.countDown b).toNat = b.toNat - 1 := by
  unfold Timers.countDown
  split
  · subst_vars; rfl
  · rename_i h
    rw [UInt8.toNat_sub_of_le]
    · rfl
    · rw [UInt8.le_iff_toNat_le]
      have : b.toNat ≠ 0 := fun h' => h (UInt8.toNat_inj.mp h')
      show 1 ≤ b.toNat
      omega

end Chip8
