/-! # Bytes

An integer is stored by its low eight bits. What a sum, a difference or a shift of bytes drops is one bit, which together
with the byte that is kept makes up the exact result. -/

namespace Chip8

theorem toNat_ofInt (n : Int) : (UInt8.ofInt n).toNat = (n % 256).toNat := by
  rw [UInt8.ofInt, UInt8.toNat_ofNat', show (2 ^ 8 : Int) = 256 from rfl]
  omega

theorem ofInt_emod (n : Int) : UInt8.ofInt (n % 256) = UInt8.ofInt n := by
  simp only [UInt8.ofInt, show (2 ^ 8 : Int) = 256 from rfl, Int.emod_emod]

theorem ofInt_add_emod (m n : Int) : UInt8.ofInt (m + n % 256) = UInt8.ofInt (m + n) := by
  rw [UInt8.ofInt_add, ofInt_emod, UInt8.ofInt_add]

theorem ofInt_toNat (b : UInt8) : UInt8.ofInt b.toNat = b := by
  have hlt := b.toNat_lt
  rw [← UInt8.toNat_inj, toNat_ofInt]
  omega

theorem toNat_add_carry (a b : UInt8) :
    256 * (if 255 < a.toNat + b.toNat then 1 else 0) + (a + b).toNat = a.toNat + b.toNat := by
  have ha := a.toNat_lt
  have hb := b.toNat_lt
  rw [UInt8.toNat_add]
  split <;> omega

theorem toNat_sub_borrow (a b : UInt8) :
    ((a - b).toNat : Int) = a.toNat - b.toNat + 256 * (1 - (if b.toNat ≤ a.toNat then 1 else 0 : Nat)) := by
  have ha := a.toNat_lt
  have hb := b.toNat_lt
  rw [UInt8.toNat_sub]
  split <;> omega

theorem testBit_zero_toNat (a : UInt8) : (if a.toNat.testBit 0 then 1 else 0) = a.toNat % 2 := by
  rw [Nat.testBit_eq_decide_div_mod_eq, Nat.pow_zero, Nat.div_one]
  simp only [decide_eq_true_eq]
  split <;> omega

theorem testBit_seven_toNat (a : UInt8) : (if a.toNat.testBit 7 then 1 else 0) = a.toNat / 128 := by
  have ha := a.toNat_lt
  rw [Nat.testBit_eq_decide_div_mod_eq, show 2 ^ 7 = 128 from rfl]
  simp only [decide_eq_true_eq]
  split <;> omega

theorem toNat_shiftRight_one (a : UInt8) : 2 * (a >>> 1).toNat + a.toNat % 2 = a.toNat := by
  rw [UInt8.toNat_shiftRight]
  show 2 * (a.toNat >>> 1) + a.toNat % 2 = a.toNat
  rw [Nat.shiftRight_eq_div_pow]
  omega

theorem toNat_shiftLeft_one (a : UInt8) : 256 * (a.toNat / 128) + (a <<< 1).toNat = 2 * a.toNat := by
  have ha := a.toNat_lt
  rw [UInt8.toNat_shiftLeft]
  show 256 * (a.toNat / 128) + (a.toNat <<< 1) % 256 = 2 * a.toNat
  rw [Nat.shiftLeft_eq]
  omega

end Chip8
