/-! # Overlays

`overlay v i ds` puts the list `ds` over the vector `v` from place `i` on; what reaches past the end is dropped. -/

namespace Chip8

variable {α : Type} {n : Nat}

def overlay (v : Vector α n) (i : Nat) : List α → Vector α n
  | [] => v
  | d :: ds => if h : i < n then overlay (v.set i d h) (i + 1) ds else v

theorem getElem_overlay (v : Vector α n) (i : Nat) (ds : List α) (j : Nat) (hj : j < n) :
    (overlay v i ds)[j] = if h : i ≤ j ∧ j - i < ds.length then ds[j - i] else v[j] := by
  induction ds generalizing v i with
  | nil => simp [overlay]
  | cons d ds ih =>
    rw [overlay]
    split
    · rw [ih, Vector.getElem_set]
      rcases Nat.lt_trichotomy i j with hij | rfl | hij
      · obtain ⟨k, rfl⟩ : ∃ k, j = i + 1 + k := ⟨j - (i + 1), by omega⟩
        grind
      · grind
      · grind
    · grind

end Chip8
