import Chip8.Numeral.Nearest
import Chip8.Numeral.Shortest

/-! # Tick rates

Ticks a second, as an integer or a real number. -/

namespace Chip8

inductive Rate
  | int (n : Int)
  | float (x : Float)

namespace Rate

def notPositive : Rate → Bool
  | int n => n ≤ 0
  | float x => x ≤ 0

def shown : Rate → String
  | int n => toString n
  | float x => Numeral.shortest x

/-- The time between two ticks; none for an integer beyond the largest double. -/
def interval? : Rate → Option Float
  | int n => (Numeral.floatOfInt? n).map (1 / ·)
  | float x => some (1 / x)

end Rate
end Chip8
