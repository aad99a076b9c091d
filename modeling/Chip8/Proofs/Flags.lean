import Chip8.Proofs.Bytes
import Chip8.Proofs.Footprint

/-! # Arithmetic and the flag register

An arithmetic operation stores a byte in its first register, and five of the operations store a flag behind it: the carry of
a sum, the missing borrow of a difference, the bit that a shift drops. Byte and flag make up the exact result, also where
the two operands are one register; where the first register is the flag register itself, the flag is what remains. -/

namespace Chip8

namespace Registers
variable {r r' : Registers} {i : Instruction} {x : RegisterIndex}

theorem toNat_read_flag (r : Registers) (c : Bool) : ((r.setFlag c).read flag).toNat = if c then 1 else 0 := by
  rw [read_setFlag]
  cases c <;> rfl

theorem read_of_flagged (r : Registers) (v : UInt8) (c : Bool) (hx : x ≠ flag) :
    ((r.put x v).setFlag c).read x = v := by
  rw [read_setFlag_of_ne hx, read_put_self]

/-- What an operation leaves in the registers that it can write, from the numbers in its operands before. -/
structure Computes (i : Instruction) (r r' : Registers) : Prop where
  ild : i.op = .ild → ((r'.read i.x).toNat : Int) = i.byte % 256
  iadd : i.op = .iadd → ((r'.read i.x).toNat : Int) = ((r.read i.x).toNat + i.byte) % 256
  rld : i.op = .rld → (r'.read i.x).toNat = (r.read i.y).toNat
  ror : i.op = .ror → (r'.read i.x).toNat = (r.read i.x).toNat ||| (r.read i.y).toNat
  rand : i.op = .rand → (r'.read i.x).toNat = (r.read i.x).toNat &&& (r.read i.y).toNat
  rxor : i.op = .rxor → (r'.read i.x).toNat = (r.read i.x).toNat ^^^ (r.read i.y).toNat
  radd : i.op = .radd →
    (r'.read flag).toNat = (if 255 < (r.read i.x).toNat + (r.read i.y).toNat then 1 else 0) ∧
    (i.x ≠ flag → 256 * (r'.read flag).toNat + (r'.read i.x).toNat = (r.read i.x).toNat + (r.read i.y).toNat)
  rsub : i.op = .rsub →
    (r'.read flag).toNat = (if (r.read i.y).toNat ≤ (r.read i.x).toNat then 1 else 0) ∧
    (i.x ≠ flag → ((r'.read i.x).toNat : Int) =
      (r.read i.x).toNat - (r.read i.y).toNat + 256 * (1 - (r'.read flag).toNat))
  rsubn : i.op = .rsubn →
    (r'.read flag).toNat = (if (r.read i.x).toNat ≤ (r.read i.y).toNat then 1 else 0) ∧
    (i.x ≠ flag → ((r'.read i.x).toNat : Int) =
      (r.read i.y).toNat - (r.read i.x).toNat + 256 * (1 - (r'.read flag).toNat))
  shr : i.op = .shr →
    (r'.read flag).toNat = (r.read i.x).toNat % 2 ∧
    (i.x ≠ flag → 2 * (r'.read i.x).toNat + (r'.read flag).toNat = (r.read i.x).toNat)
  shl : i.op = .shl →
    (r'.read flag).toNat = (r.read i.x).toNat / 128 ∧
    (i.x ≠ flag → 256 * (r'.read flag).toNat + (r'.read i.x).toNat = 2 * (r.read i.x).toNat)
  flag_kept : i.op ∈ [.ild, .iadd, .rld, .ror, .rand, .rxor] → i.x ≠ flag → r'.read flag = r.read flag
  others_kept : ∀ y, y ≠ i.x → y ≠ flag → r'.read y = r.read y
  index_kept : r'.index = r.index

theorem computes_of_alu (h : alu i r = .ok () r') : Computes i r r' where
  ild hop := by
    simp only [alu, hop] at h
    cases h
    rw [write, read_put_self, toNat_ofInt]
    omega
  iadd hop := by
    simp only [alu, hop] at h
    cases h
    rw [write, read_put_self, toNat_ofInt]
    omega
  rld hop := by
    simp only [alu, hop] at h
    cases h
    rw [read_put_self]
  ror hop := by
    simp only [alu, hop] at h
    cases h
    rw [read_put_self, UInt8.toNat_or]
  rand hop := by
    simp only [alu, hop] at h
    cases h
    rw [read_put_self, UInt8.toNat_and]
  rxor hop := by
    simp only [alu, hop] at h
    cases h
    rw [read_put_self, UInt8.toNat_xor]
  radd hop := by
    simp only [alu, hop] at h
    cases h
    simp only [toNat_read_flag, decide_eq_true_eq, true_and]
    intro hx
    rw [read_of_flagged _ _ _ hx]
    exact toNat_add_carry _ _
  rsub hop := by
    simp only [alu, hop] at h
    cases h
    simp only [toNat_read_flag, decide_eq_true_eq, UInt8.le_iff_toNat_le, true_and]
    intro hx
    rw [read_of_flagged _ _ _ hx]
    exact toNat_sub_borrow _ _
  rsubn hop := by
    simp only [alu, hop] at h
    cases h
    simp only [toNat_read_flag, decide_eq_true_eq, UInt8.le_iff_toNat_le, true_and]
    intro hx
    rw [read_of_flagged _ _ _ hx]
    exact toNat_sub_borrow _ _
  shr hop := by
    simp only [alu, hop] at h
    cases h
    rw [toNat_read_flag, testBit_zero_toNat]
    refine ⟨rfl, fun hx => ?_⟩
    rw [read_of_flagged _ _ _ hx]
    exact toNat_shiftRight_one _
  shl hop := by
    simp only [alu, hop] at h
    cases h
    rw [toNat_read_flag, testBit_seven_toNat]
    refine ⟨rfl, fun hx => ?_⟩
    rw [read_of_flagged _ _ _ hx]
    exact toNat_shiftLeft_one _
  flag_kept hop hx := by
    have hplain : ∀ op ∈ [Op.ild, .iadd, .rld, .ror, .rand, .rxor], op ∉ Op.flagging := by decide
    obtain ⟨b, rfl | ⟨hflag, -⟩⟩ := alu_cases h
    · exact read_put_of_ne hx b
    · exact absurd hflag (hplain _ hop)
  others_kept y hy hf := by
    obtain ⟨b, rfl | ⟨-, c, rfl⟩⟩ := alu_cases h
    · exact read_put_of_ne hy.symm b
    · exact (read_setFlag_of_ne hf c).trans (read_put_of_ne hy.symm b)
  index_kept := by
    obtain ⟨b, rfl | ⟨-, c, rfl⟩⟩ := alu_cases h
    · rfl
    · rfl

/-- Taking off again what was added restores the register; there is a borrow just where there was a carry. -/
theorem read_of_radd_rsub {j : Instruction} {r₁ r₂ : Registers} (hi : i.op = .radd) (hj : j.op = .rsub) (hx : j.x = i.x)
    (hy : j.y = i.y) (hne : i.x ≠ i.y) (hxf : i.x ≠ flag) (hyf : i.y ≠ flag) (h₁ : Computes i r r₁)
    (h₂ : Computes j r₁ r₂) : r₂.read i.x = r.read i.x ∧ (r₂.read flag).toNat = 1 - (r₁.read flag).toNat := by
  have ha := (r.read i.x).toNat_lt
  have hb : r₁.read i.y = r.read i.y := h₁.others_kept i.y hne.symm hyf
  obtain ⟨hcarry, hsum⟩ := h₁.radd hi
  obtain ⟨hborrow, hdifference⟩ := h₂.rsub hj
  rw [hx, hy, hb] at hborrow hdifference
  have hsum := hsum hxf
  have hdifference := hdifference hxf
  rw [← UInt8.toNat_inj]
  -- Without a carry the sum is no less than the second number, and with one it is less.
  split at hcarry <;> split at hborrow <;> omega

/-- Every arithmetic operation completes on all registers and computes what `Computes` says, whichever registers it names,
and executing it goes on behind it. A difference that is taken after a sum of the same two registers restores the first. -/
theorem alu_computes :
    (∀ (i : Instruction) (r : Registers), i.op ∈ Op.alu → ∃ r', alu i r = .ok () r' ∧ Computes i r r' ∧
      ∀ m : Machine, m.registers = r → Machine.execute i m = .ok (m.pc + 2) { m with registers := r' }) ∧
    ∀ (i j : Instruction) (r : Registers), i.op = .radd → j.op = .rsub → j.x = i.x → j.y = i.y → i.x ≠ i.y → i.x ≠ flag →
      i.y ≠ flag → ∃ r₁ r₂, alu i r = .ok () r₁ ∧ alu j r₁ = .ok () r₂ ∧
        r₂.read i.x = r.read i.x ∧ (r₂.read flag).toNat = 1 - (r₁.read flag).toNat := by
  refine ⟨fun i r hop => ?_, fun i j r hi hj hx hy hne hxf hyf => ?_⟩
  · obtain ⟨r', h⟩ := Machine.alu_eq_ok hop r
    refine ⟨r', h, computes_of_alu h, ?_⟩
    rintro m rfl
    exact (Machine.Effect.alu hop h).execute
  · obtain ⟨r₁, h₁⟩ := Machine.alu_eq_ok (i := i) (by rw [hi]; decide) r
    obtain ⟨r₂, h₂⟩ := Machine.alu_eq_ok (i := j) (by rw [hj]; decide) r₁
    exact ⟨r₁, r₂, h₁, h₂,
      read_of_radd_rsub hi hj hx hy hne hxf hyf (computes_of_alu h₁) (computes_of_alu h₂)⟩

/-- The flag register added to itself keeps the carry only; 200 and 100 make 44 and a carry, and less 100 that is 200. -/
theorem alu_computes_overflow :
    let r : Registers := ((blank.put 1 200).put 2 100).put flag 200
    let double : Instruction := { op := .radd, word := 0x8FF4, x := 0xF, y := 0xF }
    let i : Instruction := { op := .radd, word := 0x8124, x := 1, y := 2 }
    let j : Instruction := { op := .rsub, word := 0x8125, x := 1, y := 2 }
    double.op ∈ Op.alu ∧ i.op = .radd ∧ j.op = .rsub ∧ j.x = i.x ∧ j.y = i.y ∧ i.x ≠ i.y ∧ i.x ≠ flag ∧ i.y ≠ flag ∧
      (∃ r', alu double r = .ok () r' ∧ (r'.read flag).toNat = 1 ∧ r'.read 1 = 200) ∧
      ∃ r₁ r₂, alu i r = .ok () r₁ ∧ alu j r₁ = .ok () r₂ ∧ r₂.read 1 = 200 ∧
        (r₂.read flag).toNat = 1 - (r₁.read flag).toNat := by
  intro r double i j
  have hdouble : double.op ∈ Op.alu := by decide
  obtain ⟨r', h, hc, -⟩ := alu_computes.1 double r hdouble
  have hcarry : (r'.read flag).toNat = 1 := (hc.radd rfl).1
  have hother : r'.read 1 = 200 := hc.others_kept 1 (by decide) (by decide)
  have hne : i.x ≠ i.y ∧ i.x ≠ flag ∧ i.y ≠ flag := by decide
  exact ⟨hdouble, rfl, rfl, rfl, rfl, hne.1, hne.2.1, hne.2.2, ⟨r', h, hcarry, hother⟩,
    alu_computes.2 i j r rfl rfl rfl rfl hne.1 hne.2.1 hne.2.2⟩

end Registers
end Chip8
