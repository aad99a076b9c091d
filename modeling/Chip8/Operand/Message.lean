import Chip8.Numeral.Shortest
import Chip8.Operand
import Chip8.Text.Quoted

/-! # Operands and operand errors as text -/

namespace Chip8

/-- An operand as messages show it. -/
def Operand.shown : Operand → String
  | address a => a.text
  | int n => toString n
  | float x => Numeral.shortest x
  | bool b => if b then "True" else "False"
  | text s => Text.quoted s
  | null => "None"

/-- An operand as it prints by itself: texts are not quoted. -/
def Operand.printed : Operand → String
  | text s => s
  | v => v.shown

namespace OperandError

/-- The longest quotation of a malformed numeral, in characters. -/
def maxQuotation : Nat := 200

def message : OperandError → String
  | cannotBuild target source => "cannot build " ++ target.name ++ " from " ++ source.name
  | noCells => "integer modulo by zero"
  | malformedNumeral s =>
    "invalid literal for int() with base 10: " ++ String.ofList ((Text.quoted s).toList.take maxQuotation)
  | numeralTooLong digits =>
    "Exceeds the limit (4300 digits) for integer string conversion: value has " ++ toString digits ++
      " digits; use sys.set_int_max_str_digits() to increase the limit"
  | tooLongToShow => Numeral.tooLongToShow
  | notANumber => "cannot convert float NaN to integer"
  | infinite => "cannot convert float infinity to integer"
  | notConvertible kind =>
    "int() argument must be a string, a bytes-like object or a real number, not '" ++ kind ++ "'"
  | cannotMix left right => "cannot mix " ++ left.name ++ " and " ++ right.name
  | unsupported symbol left right =>
    "unsupported operand type(s) for " ++ symbol ++ ": '" ++ left ++ "' and '" ++ right ++ "'"
  | cannotConcatenate right => "can only concatenate str (not \"" ++ right ++ "\") to str"
  | tooLargeForDouble => "int too large to convert to float"
  | unordered symbol left right =>
    "'" ++ symbol ++ "' not supported between instances of '" ++ left ++ "' and '" ++ right ++ "'"

end OperandError
end Chip8
