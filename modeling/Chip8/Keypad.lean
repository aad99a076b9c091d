/-! # Keypad

Sixteen keys, each down or up. A key number counts modulo sixteen. -/

namespace Chip8

structure Keypad where
  down : Vector Bool 16
deriving DecidableEq

namespace Keypad

def released : Keypad := ⟨Vector.replicate 16 false⟩

def key (k : Int) : Fin 16 := ⟨(k % 16).toNat, by omega⟩

def set (p : Keypad) (k : Int) (isDown : Bool) : Keypad := ⟨p.down.set (key k) isDown⟩

def press (p : Keypad) (k : Int) : Keypad := p.set k true

def release (p : Keypad) (k : Int) : Keypad := p.set k false

def isPressed (p : Keypad) (k : Int) : Bool := p.down[key k]

/-- The keys that are down, ascending. -/
def pressed (p : Keypad) : List (Fin 16) := (List.finRange 16).filter fun k => p.down[k]

/-- A keypad with just the given keys down. -/
def ofKeys (ks : List Int) : Keypad := ks.foldl press released

theorem mem_pressed {p : Keypad} {k : Fin 16} : k ∈ p.pressed ↔ p.down[k] = true := by
  simp [pressed]

theorem isPressed_iff {p : Keypad} {k : Int} : p.isPressed k = true ↔ key k ∈ p.pressed := by
  rw [mem_pressed, isPressed]

theorem head_le_of_pressed {p : Keypad} {k : Fin 16} {ks : List (Fin 16)} (h : p.pressed = k :: ks) :
    ∀ j ∈ p.pressed, k ≤ j := by
  have hsorted : p.pressed.Pairwise (· < ·) := (List.pairwise_lt_finRange 16).filter _
  rw [h, List.pairwise_cons] at hsorted
  intro j hj
  rw [h] at hj
  rcases List.mem_cons.mp hj with rfl | hj
  · exact Fin.le_refl j
  · exact Fin.le_of_lt (hsorted.1 j hj)

end Keypad
end Chip8
