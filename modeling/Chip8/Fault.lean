import Chip8.Op
import Chip8.Operand.Message

/-! # Faults

What can go wrong when the machine or one of its parts is asked for something. -/

namespace Chip8

inductive Fault
  | stackFull (pushed : Operand)
  | stackEmpty
  | notAlu (op : Op)
  | notSkip (op : Op)
  | notIndex (op : Op)
  | notTimer (op : Op)
  | unimplemented (op : Op)
  | columnOutOfRange
  | operand (e : OperandError)

namespace Fault

/-- The fault of a push on a full stack. It shows what was pushed, if that can be shown. -/
def ofFullStack (v : Operand) : Fault := if v.isTooLongToShow then operand .tooLongToShow else stackFull v

/-- Whether a running program can cause the fault. -/
def isStackFault : Fault → Bool
  | stackFull _ | stackEmpty => true
  | _ => false

def message : Fault → String
  | stackFull pushed => "call stack full (16 entries), cannot push " ++ pushed.shown
  | stackEmpty => "return with empty call stack"
  | notAlu op => "Not an ALU operation: " ++ op.shown
  | notSkip op => "Not a skip operation: " ++ op.shown
  | notIndex op => "Not an index operation: " ++ op.shown
  | notTimer op => "Not a timer operation: " ++ op.shown
  | unimplemented op => "Unimplemented operation: " ++ op.shown
  | columnOutOfRange => "Python int too large to convert to C long"
  | operand e => e.message

end Fault
end Chip8
