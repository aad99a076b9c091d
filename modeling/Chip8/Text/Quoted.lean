import Chip8.Text.Padded
import Chip8.Text.Printable

/-! # Quoted text

Text as messages show it: between single quotes, or between double quotes if it holds a single quote and no
double quote. The backslash, the quote in use and every character that is not printable are escaped. -/

namespace Chip8.Text

def escaped (digits : Nat) (mark : Char) (c : Char) : List Char :=
  '\\' :: mark :: padLeft digits '0' (Nat.toDigits 16 c.toNat)

/-- The character as it stands between two `q`. -/
def quoteChar (q c : Char) : List Char :=
  if c = '\\' ∨ c = q then ['\\', c]
  else if c = '\n' then ['\\', 'n']
  else if c = '\r' then ['\\', 'r']
  else if c = '\t' then ['\\', 't']
  else if isPrintable c then [c]
  else if c.toNat < 0x100 then escaped 2 'x' c
  else if c.toNat < 0x10000 then escaped 4 'u' c
  else escaped 8 'U' c

/-- The quote that a text is put between. -/
def quoteFor (s : List Char) : Char :=
  if s.contains '\'' && !s.contains '"' then '"' else '\''

def quoted (s : String) : String :=
  let cs := s.toList
  let q := quoteFor cs
  String.ofList (q :: cs.flatMap (quoteChar q) ++ [q])

end Chip8.Text
