/-! # Padded numbers

A width counts every character of the number, the minus sign too; a number that needs more is written in full. -/

namespace Chip8.Text

def padLeft (width : Nat) (fill : Char) (s : List Char) : List Char :=
  List.replicate (width - s.length) fill ++ s

theorem length_padLeft (width : Nat) (fill : Char) (s : List Char) :
    (padLeft width fill s).length = max width s.length := by
  simp only [padLeft, List.length_append, List.length_replicate]; omega

def hexDigits (n : Nat) : List Char := (Nat.toDigits 16 n).map Char.toUpper

/-- Capital hexadecimal digits after an optional minus sign, filled up with zeros. -/
def hex (width : Nat) (n : Int) : String :=
  if n < 0 then String.ofList ('-' :: padLeft (width - 1) '0' (hexDigits n.natAbs))
  else String.ofList (padLeft width '0' (hexDigits n.natAbs))

/-- Decimal digits set flush right. -/
def flushRight (width : Nat) (n : Nat) : String :=
  String.ofList (padLeft width ' ' (Nat.toDigits 10 n))

end Chip8.Text
