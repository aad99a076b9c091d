import Chip8.Op
import Chip8.Space

/-! # Instructions

An instruction word is four hexadecimal digits `o x y n`. A format fixes some of them and gives the others to
operands; the formats are tried in order and the first that accepts a word decodes it, so the two words `00E0`
and `00EE` come before the format that takes every word with a leading zero. -/

namespace Chip8

/-- An operation with its operands. Decoded operands are in range and zero where the format has none. -/
structure Instruction where
  op : Op
  word : Int := 0
  x : RegisterIndex := 0
  y : RegisterIndex := 0
  addr : MemoryAddress := 0
  byte : Int := 0
  nibble : Int := 0
deriving DecidableEq

/-- The four hexadecimal digits of a word. -/
structure Digits where
  o : Fin 16
  x : Fin 16
  y : Fin 16
  n : Fin 16
deriving DecidableEq

namespace Digits

/-- The digits of a number modulo `2¹⁶`. -/
def ofNat (w : Nat) : Digits :=
  ⟨Fin.ofNat 16 (w / 4096), Fin.ofNat 16 (w / 256), Fin.ofNat 16 (w / 16), Fin.ofNat 16 w⟩

def word (d : Digits) : Nat := d.o * 4096 + d.x * 256 + d.y * 16 + d.n

/-- The last three digits as an address. -/
def addr (d : Digits) : MemoryAddress := ⟨d.x * 256 + d.y * 16 + d.n, by omega⟩

/-- The last two digits as a number. -/
def byte (d : Digits) : Nat := d.y * 16 + d.n

theorem word_lt (d : Digits) : d.word < 65536 := by unfold word; omega

theorem word_ofNat (w : Nat) : (ofNat w).word = w % 65536 := by
  simp only [word, ofNat, Fin.ofNat]; omega

theorem ofNat_word (d : Digits) : ofNat d.word = d := by
  obtain ⟨o, x, y, n⟩ := d
  simp only [word, ofNat, Fin.ofNat, Digits.mk.injEq, Fin.ext_iff]; omega

end Digits

/-- Which operands a format has. -/
inductive Layout
  | bare
  | address
  | immediate
  | pair
  | single
  | sprite
deriving DecidableEq

structure Format where
  op : Op
  o : Fin 16
  x : Option (Fin 16)
  y : Option (Fin 16)
  n : Option (Fin 16)
  layout : Layout

namespace Format

/-- Every fixed digit of the format is the word's digit. -/
def accepts (f : Format) (d : Digits) : Bool :=
  f.o == d.o && f.x.all (· == d.x) && f.y.all (· == d.y) && f.n.all (· == d.n)

/-- The instruction that a word of this format stands for. -/
def read (f : Format) (d : Digits) : Instruction :=
  match f.layout with
  | .bare => { op := f.op, word := d.word }
  | .address => { op := f.op, word := d.word, addr := d.addr }
  | .immediate => { op := f.op, word := d.word, x := d.x, byte := d.byte }
  | .pair => { op := f.op, word := d.word, x := d.x, y := d.y }
  | .single => { op := f.op, word := d.word, x := d.x }
  | .sprite => { op := f.op, word := d.word, x := d.x, y := d.y, nibble := d.n.val }

def table : List Format := [
  ⟨.cls, 0x0, some 0x0, some 0xE, some 0x0, .bare⟩,
  ⟨.ret, 0x0, some 0x0, some 0xE, some 0xE, .bare⟩,
  ⟨.sys, 0x0, none, none, none, .address⟩,
  ⟨.jp, 0x1, none, none, none, .address⟩,
  ⟨.call, 0x2, none, none, none, .address⟩,
  ⟨.ise, 0x3, none, none, none, .immediate⟩,
  ⟨.isne, 0x4, none, none, none, .immediate⟩,
  ⟨.rse, 0x5, none, none, some 0x0, .pair⟩,
  ⟨.ild, 0x6, none, none, none, .immediate⟩,
  ⟨.iadd, 0x7, none, none, none, .immediate⟩,
  ⟨.rld, 0x8, none, none, some 0x0, .pair⟩,
  ⟨.ror, 0x8, none, none, some 0x1, .pair⟩,
  ⟨.rand, 0x8, none, none, some 0x2, .pair⟩,
  ⟨.rxor, 0x8, none, none, some 0x3, .pair⟩,
  ⟨.radd, 0x8, none, none, some 0x4, .pair⟩,
  ⟨.rsub, 0x8, none, none, some 0x5, .pair⟩,
  ⟨.shr, 0x8, none, none, some 0x6, .single⟩,
  ⟨.rsubn, 0x8, none, none, some 0x7, .pair⟩,
  ⟨.shl, 0x8, none, none, some 0xE, .single⟩,
  ⟨.rsne, 0x9, none, none, some 0x0, .pair⟩,
  ⟨.ldi, 0xA, none, none, none, .address⟩,
  ⟨.jpv0, 0xB, none, none, none, .address⟩,
  ⟨.rnd, 0xC, none, none, none, .immediate⟩,
  ⟨.drw, 0xD, none, none, none, .sprite⟩,
  ⟨.skp, 0xE, none, some 0x9, some 0xE, .single⟩,
  ⟨.sknp, 0xE, none, some 0xA, some 0x1, .single⟩,
  ⟨.lddt, 0xF, none, some 0x0, some 0x7, .single⟩,
  ⟨.ldk, 0xF, none, some 0x0, some 0xA, .single⟩,
  ⟨.setdt, 0xF, none, some 0x1, some 0x5, .single⟩,
  ⟨.setst, 0xF, none, some 0x1, some 0x8, .single⟩,
  ⟨.addi, 0xF, none, some 0x1, some 0xE, .single⟩,
  ⟨.ldfi, 0xF, none, some 0x2, some 0x9, .single⟩,
  ⟨.ldbcd, 0xF, none, some 0x3, some 0x3, .single⟩,
  ⟨.dump, 0xF, none, some 0x5, some 0x5, .single⟩,
  ⟨.load, 0xF, none, some 0x6, some 0x5, .single⟩]

end Format

namespace Instruction

def ofDigits? (d : Digits) : Option Instruction := (Format.table.find? (·.accepts d)).map (·.read d)

/-- The instruction of a word, of which only the low sixteen bits count; none if no format accepts it. -/
def decode (w : Int) : Option Instruction := ofDigits? (Digits.ofNat (w % 65536).toNat)

/-- The instruction of two bytes, the high one first. -/
def decodeBytes (high low : Int) : Option Instruction := decode (high % 256 * 256 + low % 256)

end Instruction
end Chip8
