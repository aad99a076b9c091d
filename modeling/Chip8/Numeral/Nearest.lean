/-! # The nearest double

`nearestBits num den` is the double nearest to the ratio `num / den`, a tie going to the even mantissa. Doubles of
one sign are ordered as their bits are, so a carry out of the mantissa moves into the exponent by itself. -/

namespace Chip8.Numeral

def roundHalfEven (num den : Nat) : Nat :=
  let q := num / den
  let r := num % den
  if den < 2 * r ∨ (2 * r = den ∧ q % 2 = 1) then q + 1 else q

/-- The ratio `num / den` divided by `2 ^ k`. -/
def shiftedRatio (num den : Nat) (k : Int) : Nat × Nat :=
  (num * Nat.pow 2 (-k).toNat, den * Nat.pow 2 k.toNat)

/-- The power of two that the last place of the nearest double counts. -/
def lastPlace (num den : Nat) : Int :=
  let k : Int := num.log2 - den.log2 - 53
  let (n, d) := shiftedRatio num den k
  max (if Nat.pow 2 53 ≤ n / d then k + 1 else k) (-1074)

/-- The bits of the nearest double; none if the ratio is beyond the largest. -/
def nearestBits (num den : Nat) : Option Nat :=
  if num = 0 then some 0
  else
    let k := lastPlace num den
    let (n, d) := shiftedRatio num den k
    let bits := roundHalfEven n d + (k + 1074).toNat * Nat.pow 2 52
    if bits < 0x7FF * Nat.pow 2 52 then some bits else none

def withSign (negative : Bool) (bits : Nat) : Float :=
  Float.ofBits (UInt64.ofNat (if negative then Nat.pow 2 63 + bits else bits))

/-- The nearest double of an integer; none if it is beyond the largest. -/
def floatOfInt? (n : Int) : Option Float :=
  (nearestBits n.natAbs 1).map (withSign (n < 0))

/-- The nearest double of `digits · 10 ^ exponent`, an infinity beyond the largest. -/
def floatOfDecimal (negative : Bool) (digits : Nat) (exponent : Int) : Float :=
  let size : Int := (Nat.toDigits 10 digits).length + exponent
  let bits :=
    if digits = 0 ∨ size < -330 then some 0
    else if 310 < size then none
    else nearestBits (digits * Nat.pow 10 exponent.toNat) (Nat.pow 10 (-exponent).toNat)
  withSign negative (bits.getD (0x7FF * Nat.pow 2 52))

end Chip8.Numeral
