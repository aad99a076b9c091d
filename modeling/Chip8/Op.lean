/-! # Operations

The thirty-five operations, and a name that belongs to none of them. -/

namespace Chip8

inductive Op
  | sys | cls | ret | jp | call
  | ise | isne | rse | ild | iadd
  | rld | ror | rand | rxor | radd | rsub | shr | rsubn | shl
  | rsne | ldi | jpv0 | rnd | drw | skp | sknp
  | lddt | ldk | setdt | setst | addi | ldfi | ldbcd | dump | load
  /-- A name that no operation has. -/
  | other (name : String)
deriving DecidableEq

namespace Op

def all : List Op :=
  [sys, cls, ret, jp, call, ise, isne, rse, ild, iadd, rld, ror, rand, rxor, radd, rsub, shr, rsubn, shl, rsne,
    ldi, jpv0, rnd, drw, skp, sknp, lddt, ldk, setdt, setst, addi, ldfi, ldbcd, dump, load]

def name : Op → String
  | sys => "SYS" | cls => "CLS" | ret => "RET" | jp => "JP" | call => "CALL"
  | ise => "ISE" | isne => "ISNE" | rse => "RSE" | ild => "ILD" | iadd => "IADD"
  | rld => "RLD" | ror => "ROR" | rand => "RAND" | rxor => "RXOR" | radd => "RADD"
  | rsub => "RSUB" | shr => "SHR" | rsubn => "RSUBN" | shl => "SHL" | rsne => "RSNE"
  | ldi => "LDI" | jpv0 => "JPV0" | rnd => "RND" | drw => "DRW" | skp => "SKP" | sknp => "SKNP"
  | lddt => "LDDT" | ldk => "LDK" | setdt => "SETDT" | setst => "SETST" | addi => "ADDI"
  | ldfi => "LDFI" | ldbcd => "LDBCD" | dump => "DUMP" | load => "LOAD"
  | other name => name

/-- An operation as messages show it. -/
def shown : Op → String
  | other name => name
  | op => "Op." ++ op.name

/-- Loads, arithmetic, logic and shifts between registers. -/
def alu : List Op := [ild, iadd, rld, ror, rand, rxor, radd, rsub, rsubn, shr, shl]

/-- Operations that skip the next instruction on a condition. -/
def skip : List Op := [ise, isne, rse, rsne, skp, sknp]

def timer : List Op := [lddt, setdt, setst]

/-- Operations on the index register and the memory it points at. -/
def index : List Op := [ldi, addi, ldfi, ldbcd, dump, load]

end Op
end Chip8
