/-! # Sets of characters by their edges

A set of characters is written down as the code points at which membership changes, ascending: the characters
below the first edge are outside, those from it to the second inside, and so on. -/

namespace Chip8.Text

/-- An odd number of edges lies at or below a character of the set. -/
def isInside (edges : List Nat) (c : Char) : Bool := (edges.takeWhile (· ≤ c.toNat)).length % 2 == 1

end Chip8.Text
