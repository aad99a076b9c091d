import Chip8.Fault

/-! # Screen

A grid of 64 by 32 pixels, each lit or dark. A sprite is a list of bytes, one a row, the highest bit leftmost;
drawing it flips a pixel for each of its set bits, and coordinates wrap at both edges. -/

namespace Chip8

/-- Bit 63 of a row is its leftmost pixel. `dirty` tells whether the screen was written since it was last shown. -/
structure Screen where
  rows : Vector (BitVec 64) 32
  dirty : Bool
deriving DecidableEq

namespace Screen

def width : Nat := 64

def height : Nat := 32

def blank : Screen := ⟨Vector.replicate 32 0, false⟩

def pixel (s : Screen) (x y : Int) : Bool :=
  (s.rows.get ⟨(y % 32).toNat, by omega⟩).getMsbD (x % 64).toNat

def clear (_ : Screen) : Screen := ⟨Vector.replicate 32 0, true⟩

/-- A sprite row with its left edge at `column`, as a row of the screen. -/
def spriteRow (bits : UInt8) (column : Nat) : BitVec 64 := (bits.toBitVec.setWidth 64 <<< 56).rotateRight column

/-- Flips the pixels under sprite rows from `line` on; also tells whether a lit pixel was flipped. -/
def drawRows (column : Nat) (rows : Vector (BitVec 64) 32) (line : Fin 32) (hit : Bool) :
    List UInt8 → Bool × Vector (BitVec 64) 32
  | [] => (hit, rows)
  | b :: bs =>
    let sprite := spriteRow b column
    let current := rows[line]
    drawRows column (rows.set line (current ^^^ sprite)) (line + 1) (hit || current &&& sprite != 0) bs

/-- Draws a sprite with its upper left corner at `(x, y)`; true if it turned a lit pixel off. -/
def draw (s : Screen) (sprite : List UInt8) (x y : Int) : Bool × Screen :=
  let (hit, rows) := drawRows (x % 64).toNat s.rows ⟨(y % 32).toNat, by omega⟩ false sprite
  (hit, ⟨rows, true⟩)

/-- Draws a sprite of any integers, of which the low eight bits count. The column must be a signed 64-bit number. -/
def blit (sprite : List Int) (x y : Int) : EStateM Fault Screen Bool := fun s =>
  if x < -0x8000000000000000 ∨ 0x8000000000000000 ≤ x then .error .columnOutOfRange s
  else
    let (hit, s) := s.draw (sprite.map UInt8.ofInt) x y
    .ok hit s

def packRow (row : BitVec 64) : List UInt8 :=
  let w := UInt64.ofBitVec row
  [(w >>> 56).toUInt8, (w >>> 48).toUInt8, (w >>> 40).toUInt8, (w >>> 32).toUInt8,
    (w >>> 24).toUInt8, (w >>> 16).toUInt8, (w >>> 8).toUInt8, w.toUInt8]

/-- The grid as 256 bytes, eight a row, the highest bit leftmost. -/
def packed (s : Screen) : List UInt8 := s.rows.toList.flatMap packRow

/-- How many pixels are lit. -/
def litCount (s : Screen) : Nat :=
  s.rows.toList.foldr (fun row n => (List.range 64).countP row.getMsbD + n) 0

def consumeDirty (s : Screen) : Bool × Screen := (s.dirty, { s with dirty := false })

theorem getMsbD_spriteRow (bits : UInt8) (column k : Nat) (hc : column < 64) (hk : k < 64) :
    (spriteRow bits column).getMsbD k = bits.toBitVec.getMsbD ((k + 64 - column) % 64) := by
  rw [spriteRow, BitVec.getMsbD_rotateRight, Nat.mod_eq_of_lt hc]
  simp only [BitVec.getMsbD_shiftLeft, BitVec.getMsbD_setWidth, decide_eq_true hk, Bool.true_and]
  split
  · rw [show (k + 64 - column) % 64 = 64 + k - column by omega, Nat.mod_eq_of_lt (by omega),
      show 64 + k - column + 56 + 8 - 64 = 64 + k - column by omega, decide_eq_true (by omega), Bool.true_and]
  · rw [show (k + 64 - column) % 64 = k - column by omega,
      show k - column + 56 + 8 - 64 = k - column by omega, decide_eq_true (by omega), Bool.true_and]

theorem getMsbD_packRow (row : BitVec 64) (j b : Nat) (hj : j < (packRow row).length) (hb : b < 8) :
    (packRow row)[j].toBitVec.getMsbD b = row.getMsbD (8 * j + b) := by
  have key (k : Nat) (hk : k ≤ 56) : ((row >>> k).setWidth 8).getMsbD b = row.getMsbD (56 - k + b) := by
    rw [BitVec.getMsbD_setWidth, BitVec.getMsbD_ushiftRight, show b + 64 - 8 - k = 56 - k + b by omega,
      decide_eq_true (by omega), decide_eq_true (by omega), decide_eq_false (by omega)]
    rfl
  simp only [packRow, List.length_cons, List.length_nil] at hj
  rcases j with _ | _ | _ | _ | _ | _ | _ | _ | j
  · exact key 56 (by omega)
  · exact key 48 (by omega)
  · exact key 40 (by omega)
  · exact key 32 (by omega)
  · exact key 24 (by omega)
  · exact key 16 (by omega)
  · exact key 8 (by omega)
  · exact key 0 (by omega)
  · omega

end Screen
end Chip8
