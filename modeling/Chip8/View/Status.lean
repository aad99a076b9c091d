import Chip8.Machine

/-! # Status line -/

namespace Chip8.View

/-- One line that sums the machine up. -/
def status (m : Machine) : String :=
  "PC: 0x" ++ Text.hex 3 m.pc.val ++ "  |  Cycles: " ++ toString m.cycles ++
    "  |  DT: " ++ Text.flushRight 3 m.timers.delay.toNat ++
    "  ST: " ++ Text.flushRight 3 m.timers.sound.toNat ++
    (if m.timers.soundActive then " (on)" else " (off)") ++
    (if m.waiting then "  |  waiting for key" else "") ++
    (if m.unrecognized = 0 then "" else "  |  unrecognized: " ++ toString m.unrecognized)

end Chip8.View
