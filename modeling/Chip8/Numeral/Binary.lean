/-! # Binary numbers

A double as the number it stands for: a sign, and a natural number times a power of two. Every integer is such a
number too, so integers and doubles compare exactly. -/

namespace Chip8.Numeral

inductive Binary
  | nan
  | infinite (negative : Bool)
  | finite (negative : Bool) (mantissa : Nat) (exponent : Int)
deriving DecidableEq

namespace Binary

def ofBits (bits : Nat) : Binary :=
  let negative := bits.testBit 63
  let biased : Nat := bits / Nat.pow 2 52 % Nat.pow 2 11
  let fraction : Nat := bits % Nat.pow 2 52
  if biased = 2047 then if fraction = 0 then infinite negative else nan
  else if biased = 0 then finite negative fraction (-1074)
  else finite negative (Nat.pow 2 52 + fraction) (biased - 1075)

def ofFloat (x : Float) : Binary := ofBits x.toBits.toNat

def ofInt (n : Int) : Binary := finite (n < 0) n.natAbs 0

/-- The mantissa of a number written with the smaller exponent `e`, with its sign. -/
def scaled (negative : Bool) (mantissa : Nat) (exponent e : Int) : Int :=
  let m : Int := mantissa * Nat.pow 2 (exponent - e).toNat
  if negative then -m else m

/-- The order of two numbers; none if one of them is not a number. -/
def compare? : Binary → Binary → Option Ordering
  | nan, _ | _, nan => none
  | infinite a, infinite b => some (compare b.toNat a.toNat)
  | infinite a, finite .. => some (if a then .lt else .gt)
  | finite .., infinite b => some (if b then .gt else .lt)
  | finite s m p, finite t n q => some (compare (scaled s m p (min p q)) (scaled t n q (min p q)))

/-- The integer part, rounded toward zero; none without one. -/
def truncate? : Binary → Option Int
  | finite negative m e =>
    let n : Int := m * Nat.pow 2 e.toNat / Nat.pow 2 (-e).toNat
    some (if negative then -n else n)
  | _ => none

end Binary
end Chip8.Numeral
