import Chip8.Proofs.Step
import Mathlib.Data.Fintype.Basic
import Mathlib.Tactic.FinCases

/-! # The words of the instructions

An operation has a pattern, the word whose operands are all zero, and a layout that says where operands are added to
it. `Instruction.assemble` builds words that way, without looking at the decoder's formats. The formats fit patterns and
layouts (`Format.Fits`) and no two of them accept one word, except that `00E0` and `00EE` are also words of the format
that takes every leading zero (`Format.Apart`); so the first format that accepts a word is the right one. -/

namespace Chip8

namespace Op

/-- The word of the operation when its operands are zero. -/
def pattern : Op → Nat
  | sys => 0x0000 | cls => 0x00E0 | ret => 0x00EE | jp => 0x1000 | call => 0x2000
  | ise => 0x3000 | isne => 0x4000 | rse => 0x5000 | ild => 0x6000 | iadd => 0x7000
  | rld => 0x8000 | ror => 0x8001 | rand => 0x8002 | rxor => 0x8003 | radd => 0x8004
  | rsub => 0x8005 | shr => 0x8006 | rsubn => 0x8007 | shl => 0x800E | rsne => 0x9000
  | ldi => 0xA000 | jpv0 => 0xB000 | rnd => 0xC000 | drw => 0xD000 | skp => 0xE09E | sknp => 0xE0A1
  | lddt => 0xF007 | ldk => 0xF00A | setdt => 0xF015 | setst => 0xF018 | addi => 0xF01E
  | ldfi => 0xF029 | ldbcd => 0xF033 | dump => 0xF055 | load => 0xF065
  | other _ => 0

/-- Which operands the operation has. -/
def layout : Op → Layout
  | cls | ret | other _ => .bare
  | sys | jp | call | ldi | jpv0 => .address
  | ise | isne | ild | iadd | rnd => .immediate
  | rse | rld | ror | rand | rxor | radd | rsub | rsubn | rsne => .pair
  | shr | shl | skp | sknp | lddt | ldk | setdt | setst | addi | ldfi | ldbcd | dump | load => .single
  | drw => .sprite

end Op

namespace Instruction
variable {i : Instruction}

/-- What the operands add to the pattern of the operation. -/
def operandBits (i : Instruction) : Int :=
  match i.op.layout with
  | .bare => 0
  | .address => i.addr.val
  | .immediate => i.x.val * 256 + i.byte
  | .pair => i.x.val * 256 + i.y.val * 16
  | .single => i.x.val * 256
  | .sprite => i.x.val * 256 + i.y.val * 16 + i.nibble

def assemble (i : Instruction) : Int := i.op.pattern + i.operandBits

/-- The operands of the layout are in range and all others are zero. -/
def Admitted (i : Instruction) : Layout → Prop
  | .bare => i.x = 0 ∧ i.y = 0 ∧ i.addr = 0 ∧ i.byte = 0 ∧ i.nibble = 0
  | .address => i.x = 0 ∧ i.y = 0 ∧ i.byte = 0 ∧ i.nibble = 0
  | .immediate => i.y = 0 ∧ i.addr = 0 ∧ (0 ≤ i.byte ∧ i.byte < 256) ∧ i.nibble = 0
  | .pair => i.addr = 0 ∧ i.byte = 0 ∧ i.nibble = 0
  | .single => i.y = 0 ∧ i.addr = 0 ∧ i.byte = 0 ∧ i.nibble = 0
  | .sprite => i.addr = 0 ∧ i.byte = 0 ∧ 0 ≤ i.nibble ∧ i.nibble < 16

/-- One of the thirty-five operations, with operands as its layout has them. -/
structure Proper (i : Instruction) : Prop where
  op_mem : i.op ∈ Op.all
  admitted : i.Admitted i.op.layout

end Instruction

/-- The words `5xyn` and `9xyn` with `n` other than 0, `8xyn` with `n` from 8 to D or F, `Exkk` with `kk` other than 9E and
A1, and `Fxkk` with `kk` other than the nine of its operations. -/
def Unassigned (u : Int) : Prop :=
  (u / 4096 = 0x5 ∨ u / 4096 = 0x9) ∧ u % 16 ≠ 0 ∨
  u / 4096 = 0x8 ∧ (0x8 ≤ u % 16 ∧ u % 16 ≤ 0xD ∨ u % 16 = 0xF) ∨
  u / 4096 = 0xE ∧ u % 256 ∉ [0x9E, 0xA1] ∨
  u / 4096 = 0xF ∧ u % 256 ∉ [0x07, 0x0A, 0x15, 0x18, 0x1E, 0x29, 0x33, 0x55, 0x65]

namespace Format
variable {f g : Format} {d : Digits} {i : Instruction}

/-- The word that the format accepts with zeros where it fixes no digit. -/
def pattern (f : Format) : Nat := f.o * 4096 + (f.x.getD 0).val * 256 + (f.y.getD 0).val * 16 + (f.n.getD 0).val

/-- The format fixes the digits that the layout has no operands for. Only shifts leave a digit free that no operand takes. -/
def Fixes (f : Format) : Layout → Prop
  | .bare => f.x.isSome ∧ f.y.isSome ∧ f.n.isSome
  | .address | .immediate | .sprite => f.x = none ∧ f.y = none ∧ f.n = none
  | .pair => f.x = none ∧ f.y = none ∧ f.n.isSome
  | .single => f.x = none ∧ f.n.isSome ∧ (f.y = none ↔ f.op = .shr ∨ f.op = .shl)

instance (f : Format) (l : Layout) : Decidable (f.Fixes l) := by
  cases l <;> exact inferInstanceAs (Decidable (_ ∧ _))

/-- The format is one of an operation, with its pattern and layout. -/
structure Fits (f : Format) : Prop where
  op_mem : f.op ∈ Op.all
  pattern_eq : f.pattern = f.op.pattern
  layout_eq : f.layout = f.op.layout
  fixes : f.Fixes f.layout

instance (f : Format) : Decidable f.Fits :=
  decidable_of_iff (f.op ∈ Op.all ∧ f.pattern = f.op.pattern ∧ f.layout = f.op.layout ∧ f.Fixes f.layout)
    ⟨fun ⟨hop, hp, hl, hx⟩ => ⟨hop, hp, hl, hx⟩, fun h => ⟨h.op_mem, h.pattern_eq, h.layout_eq, h.fixes⟩⟩

theorem fits_of_mem : ∀ f ∈ table, f.Fits := by decide

/-- Both fix a digit, and not the same one. -/
def clash (a b : Option (Fin 16)) : Bool := a.any fun p => b.any fun q => p != q

/-- No word is accepted by both formats. -/
def Apart (f g : Format) : Prop := f.o ≠ g.o ∨ clash f.x g.x ∨ clash f.y g.y ∨ clash f.n g.n

instance (f g : Format) : Decidable (f.Apart g) := inferInstanceAs (Decidable (_ ∨ _ ∨ _ ∨ _))

theorem pairwise_apart : table.Pairwise fun f g => f.Apart g ∨ g.op = .sys ∧ (f.op = .cls ∨ f.op = .ret) := by
  decide

theorem accepts_iff : f.accepts d = true ↔
    f.o = d.o ∧ (∀ a, f.x = some a → a = d.x) ∧ (∀ a, f.y = some a → a = d.y) ∧ ∀ a, f.n = some a → a = d.n := by
  have hall (a : Option (Fin 16)) (b : Fin 16) : (a.all (· == b)) = true ↔ ∀ c, a = some c → c = b := by
    cases a <;> simp
  simp only [accepts, Bool.and_eq_true, beq_iff_eq, hall, and_assoc]

theorem clash_spec {a b : Option (Fin 16)} {c : Fin 16} (h : clash a b = true) (ha : ∀ p, a = some p → p = c) :
    ¬ ∀ q, b = some q → q = c := by
  intro hb
  cases a with
  | none => simp [clash] at h
  | some p =>
    cases b with
    | none => simp [clash] at h
    | some q =>
      have hpq : p = q := (ha p rfl).trans (hb q rfl).symm
      simp [clash, hpq] at h

theorem Apart.not_accepts (h : f.Apart g) (hf : f.accepts d = true) : ¬ g.accepts d = true := by
  rw [accepts_iff] at hf ⊢
  obtain ⟨ho, hx, hy, hn⟩ := hf
  rintro ⟨ho', hx', hy', hn'⟩
  rcases h with h | h | h | h
  · exact h (ho.trans ho'.symm)
  · exact clash_spec h hx hx'
  · exact clash_spec h hy hy'
  · exact clash_spec h hn hn'

theorem word_read (f : Format) (d : Digits) : (f.read d).word = d.word := by
  unfold read
  split <;> rfl

theorem proper_read (hf : f.Fits) (d : Digits) : (f.read d).Proper := by
  refine ⟨by rw [Instruction.op_read]; exact hf.op_mem, ?_⟩
  rw [Instruction.op_read, ← hf.layout_eq]
  cases h : f.layout with
  | immediate =>
    have hlt : (d.byte : Int) < 256 := by unfold Digits.byte; omega
    simp [read, h, Instruction.Admitted, hlt]
  | sprite =>
    have hlt : ((d.n : Nat) : Int) < 16 := by omega
    simp [read, h, Instruction.Admitted, hlt]
  | _ => simp [read, h, Instruction.Admitted]

theorem getD_eq_of_isSome {a : Option (Fin 16)} {b : Fin 16} (hs : a.isSome) (ha : ∀ c, a = some c → c = b) :
    a.getD 0 = b := by
  obtain ⟨c, rfl⟩ := Option.isSome_iff_exists.mp hs
  exact ha c rfl

/-- What a fitting format reads from a word that it accepts has that word, but for the digit that shifts ignore. -/
theorem assemble_read (hf : f.Fits) (hd : f.accepts d = true) :
    (f.read d).assemble = if f.op = .shr ∨ f.op = .shl then (d.word : Int) - 16 * d.y.val else d.word := by
  obtain ⟨ho, hx, hy, hn⟩ := accepts_iff.mp hd
  have hfixes := hf.fixes
  have hshift : f.op = .shr ∨ f.op = .shl → f.layout = .single := by
    rintro (h | h) <;> rw [hf.layout_eq, h] <;> rfl
  have hword : (d.word : Int) = d.o.val * 4096 + d.x.val * 256 + d.y.val * 16 + d.n.val := by
    simp only [Digits.word]; omega
  rw [Instruction.assemble, Instruction.operandBits, Instruction.op_read, ← hf.pattern_eq, ← hf.layout_eq, pattern, ho,
    hword]
  by_cases hs : f.layout = .single
  · simp only [hs] at hfixes ⊢
    obtain ⟨hx', hn', hy'⟩ := hfixes
    simp only [read, hs, hx', getD_eq_of_isSome hn' hn, Option.getD_none]
    by_cases hfixed : f.y = none
    · rw [if_pos (hy'.mp hfixed), hfixed, Option.getD_none]
      omega
    · rw [if_neg fun h => hfixed (hy'.mpr h), getD_eq_of_isSome (Option.isSome_iff_ne_none.mpr hfixed) hy]
      omega
  · rw [if_neg fun h => hs (hshift h)]
    cases h : f.layout with
    | single => exact absurd h hs
    | bare =>
      obtain ⟨hx', hy', hn'⟩ := h ▸ hfixes
      simp only [getD_eq_of_isSome hx' hx, getD_eq_of_isSome hy' hy, getD_eq_of_isSome hn' hn]
      omega
    | pair =>
      obtain ⟨hx', hy', hn'⟩ := h ▸ hfixes
      simp only [read, h, hx', hy', getD_eq_of_isSome hn' hn, Option.getD_none]
      omega
    | address | immediate | sprite =>
      obtain ⟨hx', hy', hn'⟩ := h ▸ hfixes
      simp only [read, h, hx', hy', hn', Option.getD_none, Digits.addr, Digits.byte]
      omega

/-- The digits of an instruction in a format of its layout. -/
def digits (f : Format) (i : Instruction) : Digits :=
  match f.layout with
  | .bare => ⟨f.o, f.x.getD 0, f.y.getD 0, f.n.getD 0⟩
  | .address => ⟨f.o, Fin.ofNat 16 (i.addr / 256), Fin.ofNat 16 (i.addr / 16), Fin.ofNat 16 i.addr⟩
  | .immediate => ⟨f.o, i.x, Fin.ofNat 16 (i.byte.toNat / 16), Fin.ofNat 16 i.byte.toNat⟩
  | .pair => ⟨f.o, i.x, i.y, f.n.getD 0⟩
  | .single => ⟨f.o, i.x, f.y.getD 0, f.n.getD 0⟩
  | .sprite => ⟨f.o, i.x, i.y, Fin.ofNat 16 i.nibble.toNat⟩

theorem word_digits (hf : f.Fits) (hi : i.Proper) (hop : f.op = i.op) : ((f.digits i).word : Int) = i.assemble := by
  have hfixes := hf.fixes
  have hadm := hi.admitted
  rw [← hop, ← hf.layout_eq] at hadm
  rw [Instruction.assemble, Instruction.operandBits, ← hop, ← hf.pattern_eq, ← hf.layout_eq, pattern]
  -- Pattern and operands never share a digit, whatever the layout is, so the sum is taken digit by digit.
  cases h : f.layout <;> simp only [h, Fixes] at hfixes <;> simp only [h, Instruction.Admitted] at hadm <;>
    simp only [digits, h, hfixes, Digits.word, Fin.ofNat, Option.getD_none, Fin.val_zero] <;> omega

theorem accepts_digits (hf : f.Fits) (i : Instruction) : f.accepts (f.digits i) = true := by
  have hfixed (a : Option (Fin 16)) : ∀ c, a = some c → c = a.getD 0 := fun c h => by rw [h]; rfl
  have hfree (b : Fin 16) : ∀ c, none = some c → c = b := fun c h => nomatch h
  have hfixes := hf.fixes
  rw [accepts_iff]
  cases h : f.layout with
  | bare =>
    simp only [digits, h, true_and]
    exact ⟨hfixed _, hfixed _, hfixed _⟩
  | pair =>
    obtain ⟨hx, hy, -⟩ := h ▸ hfixes
    simp only [digits, h, hx, hy, true_and]
    exact ⟨hfree _, hfree _, hfixed _⟩
  | single =>
    obtain ⟨hx, -, -⟩ := h ▸ hfixes
    simp only [digits, h, hx, true_and]
    exact ⟨hfree _, hfixed _, hfixed _⟩
  | address | immediate | sprite =>
    obtain ⟨hx, hy, hn⟩ := h ▸ hfixes
    simp only [digits, h, hx, hy, hn, true_and]
    exact ⟨hfree _, hfree _, hfree _⟩

theorem read_digits (hf : f.Fits) (hi : i.Proper) (hop : f.op = i.op) :
    f.read (f.digits i) = { i with word := i.assemble } := by
  have hadm := hi.admitted
  rw [← hop, ← hf.layout_eq] at hadm
  rw [← word_digits hf hi hop]
  obtain ⟨op, word, x, y, addr, byte, nibble⟩ := i
  obtain rfl : f.op = op := hop
  cases h : f.layout with
  | bare =>
    obtain ⟨rfl, rfl, rfl, rfl, rfl⟩ := h ▸ hadm
    simp only [read, h]
  | address =>
    obtain ⟨rfl, rfl, rfl, rfl⟩ := h ▸ hadm
    have haddr : (f.digits ⟨f.op, word, 0, 0, addr, 0, 0⟩).addr = addr := by
      simp only [digits, h, Digits.addr, Fin.ofNat, Fin.ext_iff]
      omega
    simp only [read, h, haddr]
  | immediate =>
    obtain ⟨rfl, rfl, ⟨(hlo : 0 ≤ byte), (hhi : byte < 256)⟩, rfl⟩ := h ▸ hadm
    have hx : (f.digits ⟨f.op, word, x, 0, 0, byte, 0⟩).x = x := by simp only [digits, h]
    have hbyte : ((f.digits ⟨f.op, word, x, 0, 0, byte, 0⟩).byte : Int) = byte := by
      simp only [digits, h, Digits.byte, Fin.ofNat]
      omega
    simp only [read, h, hx, hbyte]
  | pair =>
    obtain ⟨rfl, rfl, rfl⟩ := h ▸ hadm
    simp only [read, digits, h]
  | single =>
    obtain ⟨rfl, rfl, rfl, rfl⟩ := h ▸ hadm
    simp only [read, digits, h]
  | sprite =>
    obtain ⟨rfl, rfl, (hlo : 0 ≤ nibble), (hhi : nibble < 16)⟩ := h ▸ hadm
    have hnibble : ((Fin.ofNat 16 nibble.toNat).val : Int) = nibble := by
      simp only [Fin.ofNat]
      omega
    simp only [read, digits, h, hnibble]

/-- The earlier formats reject a word that a later one accepts, `00E0` and `00EE` apart. -/
theorem rejected_before (hf : f.accepts d = true) (hg : g.Fits) (h : g.Apart f ∨ f.op = .sys ∧ (g.op = .cls ∨ g.op = .ret))
    (hw : f.op = .sys → d.word ≠ 0x00E0 ∧ d.word ≠ 0x00EE) : ¬ g.accepts d = true := by
  intro hacc
  rcases h with h | ⟨hsys, hop⟩
  · exact h.not_accepts hacc hf
  · have hword := assemble_read hg hacc
    rw [Instruction.assemble, Instruction.operandBits, Instruction.op_read] at hword
    rcases hop with hop | hop
    · simp only [hop, Op.pattern, Op.layout] at hword
      rw [if_neg (by decide)] at hword
      exact (hw hsys).1 (by omega)
    · simp only [hop, Op.pattern, Op.layout] at hword
      rw [if_neg (by decide)] at hword
      exact (hw hsys).2 (by omega)

theorem find?_accepts (hf : f ∈ table) (hd : f.accepts d = true)
    (hw : f.op = .sys → d.word ≠ 0x00E0 ∧ d.word ≠ 0x00EE) : table.find? (·.accepts d) = some f := by
  obtain ⟨before, after, htable⟩ := List.append_of_mem hf
  have hapart := htable ▸ pairwise_apart
  rw [List.pairwise_append] at hapart
  rw [List.find?_eq_some_iff_append]
  -- The match is the first one because each format before it is apart from it.
  refine ⟨hd, before, after, htable, fun g hg => ?_⟩
  have hmem : g ∈ table := by rw [htable]; exact List.mem_append_left _ hg
  have hne := rejected_before hd (fits_of_mem g hmem) (hapart.2.2 g hg f List.mem_cons_self) hw
  simpa using hne

theorem exists_of_op_mem_all : ∀ op ∈ Op.all, ∃ f ∈ table, f.op = op := by decide

theorem rejected_iff (d : Digits) : (∀ f ∈ table, ¬ f.accepts d = true) ↔ Unassigned d.word := by
  obtain ⟨o, x, y, n⟩ := d
  rw [Unassigned, show ((Digits.mk o x y n).word : Int) / 4096 = o.val by simp only [Digits.word]; omega,
    show ((Digits.mk o x y n).word : Int) % 256 = y.val * 16 + n.val by simp only [Digits.word]; omega,
    show ((Digits.mk o x y n).word : Int) % 16 = n.val by simp only [Digits.word]; omega]
  simp only [table, List.forall_mem_cons, accepts, Option.all_some, Option.all_none, Bool.and_eq_true, beq_iff_eq]
  -- The first digit leaves the formats that begin with it; where one of them fixes no other digit, all is accepted.
  fin_cases o <;> simp
  case «5» | «9» => exact not_congr eq_comm
  case «8» => revert n; decide
  case «14» => revert y n; decide
  case «15» => revert y n; decide

end Format

namespace Instruction
variable {i : Instruction} {w : Int}

theorem decode_of_digits (d : Digits) : decode d.word = ofDigits? d := by
  have hlt := d.word_lt
  rw [decode, show ((d.word : Int) % 65536).toNat = d.word by omega, Digits.ofNat_word]

theorem decode_emod (w : Int) : decode (w % 65536) = decode w := by
  rw [decode, decode, Int.emod_emod_of_dvd _ (Int.dvd_refl _)]

theorem exists_digits (w : Int) : ∃ d : Digits, (d.word : Int) = w % 65536 :=
  ⟨Digits.ofNat (w % 65536).toNat, by rw [Digits.word_ofNat]; omega⟩

theorem decode_eq_none_iff (w : Int) : decode w = none ↔ Unassigned (w % 65536) := by
  obtain ⟨d, hd⟩ := exists_digits w
  rw [← decode_emod, ← hd, decode_of_digits, ofDigits?, Option.map_eq_none_iff, List.find?_eq_none]
  exact Format.rejected_iff d

/-- A decoded instruction is proper and has its word. -/
theorem of_decode (h : decode w = some i) : i.word = w % 65536 ∧ i.Proper ∧
    i.assemble = if i.op = .shr ∨ i.op = .shl then w % 65536 - 16 * (w / 16 % 16) else w % 65536 := by
  obtain ⟨d, hd⟩ := exists_digits w
  rw [← decode_emod, ← hd, decode_of_digits] at h
  obtain ⟨f, hf, rfl⟩ := Option.map_eq_some_iff.mp h
  have hfits := Format.fits_of_mem f (List.mem_of_find?_eq_some hf)
  have hacc : f.accepts d = true := List.find?_some (p := fun g : Format => g.accepts d) hf
  have hy : w / 16 % 16 = d.y.val := by
    unfold Digits.word at hd
    omega
  rw [← hd, hy, op_read]
  exact ⟨Format.word_read f d, Format.proper_read hfits d, Format.assemble_read hfits hacc⟩

theorem assemble_sys (h : i.op = .sys) : i.assemble = i.addr.val := by
  rw [assemble, operandBits, h]
  exact Int.zero_add _

theorem decode_assemble (hi : i.Proper) (hw : i.op = .sys → i.addr ≠ 0x0E0 ∧ i.addr ≠ 0x0EE) :
    decode i.assemble = some { i with word := i.assemble } := by
  obtain ⟨f, hf, hop⟩ := Format.exists_of_op_mem_all i.op hi.op_mem
  have hfits := Format.fits_of_mem f hf
  have hword := Format.word_digits hfits hi hop
  have hfind : Format.table.find? (fun g : Format => g.accepts (f.digits i)) = some f := by
    refine Format.find?_accepts hf (Format.accepts_digits hfits i) fun hsys => ?_
    rw [hop] at hsys
    have haddr := assemble_sys hsys
    have hne := hw hsys
    rw [Ne, Ne, Fin.ext_iff, Fin.ext_iff] at hne
    change ¬ i.addr.val = 0x0E0 ∧ ¬ i.addr.val = 0x0EE at hne
    omega
  rw [← hword, decode_of_digits, ofDigits?, hfind, Option.map_some, Format.read_digits hfits hi hop, hword]

/-- Decoding looks at the low sixteen bits only and gives up on exactly the unassigned words. A decoded instruction is
proper, records its word, and is assembled to it again, but for the third digit of a shift, which is lost. Every proper
instruction is decoded from the word it is assembled to, but the two words that `sys` shares with `cls` and `ret` are
theirs. -/
theorem decode_grammar :
    (∀ w, decode w = decode (w % 65536)) ∧
    (∀ w, decode w = none ↔ Unassigned (w % 65536)) ∧
    (∀ w i, decode w = some i → i.word = w % 65536 ∧ i.Proper ∧
      i.assemble = if i.op = .shr ∨ i.op = .shl then w % 65536 - 16 * (w / 16 % 16) else w % 65536) ∧
    (∀ i : Instruction, i.Proper → decode i.assemble = some (
      if i.op = .sys ∧ i.addr = 0x0E0 then { op := .cls, word := 0x00E0 }
      else if i.op = .sys ∧ i.addr = 0x0EE then { op := .ret, word := 0x00EE }
      else { i with word := i.assemble })) ∧
    ∀ high low, decodeBytes high low = decode (256 * (high % 256) + low % 256) := by
  refine ⟨fun w => (decode_emod w).symm, decode_eq_none_iff, fun w i => of_decode, fun i hi => ?_, fun high low => ?_⟩
  · split
    · rename_i h
      rw [assemble_sys h.1, h.2]
      decide +kernel
    split
    · rename_i h
      rw [assemble_sys h.1, h.2]
      decide +kernel
    · rename_i hcls hret
      exact decode_assemble hi fun hsys => ⟨fun h => hcls ⟨hsys, h⟩, fun h => hret ⟨hsys, h⟩⟩
  · rw [decodeBytes, Int.mul_comm]

/-- A shift of register A with the bits above the sixteenth and the third digit set: both are lost, the rest is kept. -/
theorem decode_grammar_shift :
    let i : Instruction := { op := .shr, word := 0x8AB6, x := 0xA }
    decode 0x18AB6 = some i ∧ i.Proper ∧ i.assemble = 0x8A06 ∧
      decode 0x8A06 = some { i with word := 0x8A06 } := by
  intro i
  have h : decode 0x18AB6 = some i := by decide +kernel
  obtain ⟨-, -, hdecoded, hassembled, -⟩ := decode_grammar
  obtain ⟨-, hi, hword⟩ := hdecoded _ _ h
  have hlost : i.assemble = 0x8A06 := hword
  have hback := hassembled i hi
  rw [hlost, if_neg (by decide), if_neg (by decide)] at hback
  exact ⟨h, hi, hlost, hback⟩

end Instruction
end Chip8
