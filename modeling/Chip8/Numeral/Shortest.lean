import Chip8.Numeral.Binary

/-! # The shortest decimal of a double

Of the decimals that read back as a given double, `shortestDecimal` takes those with the fewest digits, and of
these the nearest to the double, an even last digit on a tie. It tests, for one digit, for two and so on, the two
neighbours of the double on the grid of decimals with so many digits. -/

namespace Chip8.Numeral

/-- The number `m · 2 ^ e` as a multiple `num / den` of `10 ^ g`. -/
def gridRatio (m : Nat) (e g : Int) : Nat × Nat :=
  (m * Nat.pow 2 e.toNat * Nat.pow 10 (-g).toNat, Nat.pow 2 (-e).toNat * Nat.pow 10 g.toNat)

/-- The least power of ten above `m · 2 ^ e`, for positive `m`. -/
def decimalSize (m : Nat) (e : Int) : Int :=
  let low := ((m.log2 : Int) + e) * 30103 / 100000
  let below := fun g => let (n, d) := gridRatio m e g; decide (n < d)
  if below low then low else if below (low + 1) then low + 1 else low + 2

/-- The nearest multiple of `10 ^ g` that rounds to the double `m · 2 ^ e`, if there is one. -/
def onGrid? (m : Nat) (e g : Int) : Option Nat :=
  let below := if m = Nat.pow 2 52 ∧ -1074 < e then 1 else 2
  let (lo, d) := gridRatio (4 * m - below) (e - 2) g
  let (mid, _) := gridRatio (4 * m) (e - 2) g
  let (hi, _) := gridRatio (4 * m + 2) (e - 2) g
  let fits := fun c => if m % 2 = 0 then lo ≤ c * d ∧ c * d ≤ hi else lo < c * d ∧ c * d < hi
  let c := mid / d
  let down := mid - c * d
  let up := (c + 1) * d - mid
  if fits c ∧ fits (c + 1) then
    some (if down < up ∨ (down = up ∧ c % 2 = 0) then c else c + 1)
  else if fits c then some c
  else if fits (c + 1) then some (c + 1)
  else none

/-- Digits and the power of ten they count, for a positive finite double `m · 2 ^ e`. -/
def shortestDecimal (m : Nat) (e : Int) : Nat × Int :=
  let size := decimalSize m e
  ((List.range 17).findSome? fun (n : Nat) =>
    let g := size - (n + 1)
    (onGrid? m e g).map (·, g)).getD (0, 0)

def dropTrailingZeros (ds : List Char) : List Char := (ds.reverse.dropWhile (· == '0')).reverse

/-- Positional for values from `10⁻⁴` up to `10¹⁶`, else with an exponent of at least two digits; a point always
shows in positional notation. `point` is the power of ten just above the value. -/
def layOut (ds : List Char) (point : Int) : List Char :=
  if -4 < point ∧ point ≤ 16 then
    if point ≤ 0 then '0' :: '.' :: List.replicate (-point).toNat '0' ++ ds
    else
      let p := point.toNat
      let whole := ds.take p ++ List.replicate (p - ds.length) '0'
      whole ++ '.' :: (if ds.length ≤ p then ['0'] else ds.drop p)
  else
    let e := point - 1
    let digits := Nat.toDigits 10 e.natAbs
    let fraction := if ds.length ≤ 1 then [] else '.' :: ds.drop 1
    ds.take 1 ++ fraction ++ 'e' :: (if e < 0 then '-' else '+') ::
      (List.replicate (2 - digits.length) '0' ++ digits)

def shortest (x : Float) : String :=
  match Binary.ofFloat x with
  | .nan => "nan"
  | .infinite negative => if negative then "-inf" else "inf"
  | .finite negative m e =>
    let body :=
      if m = 0 then ['0', '.', '0']
      else
        let (digits, g) := shortestDecimal m e
        let ds := Nat.toDigits 10 digits
        layOut (dropTrailingZeros ds) (ds.length + g)
    String.ofList (if negative then '-' :: body else body)

end Chip8.Numeral
