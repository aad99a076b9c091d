import Chip8.Screen

/-! # Picture

The screen as sixteen lines of block characters, two rows of pixels a line. -/

namespace Chip8.View

/-- The character for an upper and a lower pixel. -/
def glyph : Bool → Bool → Char
  | false, false => ' '
  | true, false => '▀'
  | false, true => '▄'
  | true, true => '█'

def pictureLine (s : Screen) (l : Nat) : List Char :=
  (List.range 64).map fun (c : Nat) => glyph (s.pixel c (2 * l : Nat)) (s.pixel c (2 * l + 1 : Nat))

def picture (s : Screen) : List String := (List.range 16).map fun l => String.ofList (pictureLine s l)

end Chip8.View
