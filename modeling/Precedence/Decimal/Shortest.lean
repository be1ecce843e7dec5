import Precedence.Decimal.Binary64

/-!
The shortest decimal that reads back as a given floating-point number. The numbers that round to
`m * 2 ^ q` form an interval around it, its ends included when `m` is even. On the grid of decimals
with a given number of digits only the two neighbours of the number need to be tried: if any point
of the grid lies in the interval, one of these does. The coarsest grid with a hit decides how many
digits are needed, and of two hits the nearer is taken, the upper one at equal distance.
-/
namespace Precedence.Decimal

/-- A decimal `digits * 10 ^ exponent`. -/
structure Scientific where
  digits : Nat
  exponent : Int
deriving DecidableEq, Inhabited

/-- A positive number, with the interval of numbers that round to it. The three numerators stand
over one denominator. -/
structure Rounding where
  low : Nat
  value : Nat
  high : Nat
  den : Nat
  closed : Bool

/-- The interval of the numbers that round to `significand * 2 ^ exponent`. It reaches half way to
either neighbour, and the lower neighbour is at half the distance where the exponent changes. -/
def Rounding.ofBinary (significand : Nat) (exponent : Int) : Rounding :=
  let atEdge := significand = Nat.pow 2 52 ∧ Binary64.leastExponent < exponent
  let up := Nat.pow 2 (exponent - 2).toNat
  { low := (4 * significand - if atEdge then 1 else 2) * up
    value := 4 * significand * up
    high := (4 * significand + 2) * up
    den := Nat.pow 2 (2 - exponent).toNat
    closed := significand % 2 == 0 }

/-- Whether the interval holds the decimal. -/
def Rounding.holds (r : Rounding) (d : Scientific) : Bool :=
  let num := d.digits * Nat.pow 10 d.exponent.toNat * r.den
  let scale := Nat.pow 10 (-d.exponent).toNat
  if r.closed then r.low * scale ≤ num && num ≤ r.high * scale
  else r.low * scale < num && num < r.high * scale

/-- The number of digits before the decimal point of a positive quotient; for a quotient below one,
minus the number of zeros after the point. -/
def pointPosition (num den : Nat) : Int :=
  if den ≤ num then (Nat.toDigits 10 (num / den)).length
  else
    let zeros := (Nat.toDigits 10 (den / num)).length
    if den ≤ num * Nat.pow 10 (zeros - 1) then 2 - (zeros : Int) else 1 - (zeros : Int)

/-- The decimal with `count` digits that reads back, if there is one. -/
def Rounding.hit? (r : Rounding) (point : Int) (count : Nat) : Option Scientific :=
  let exponent := point - count
  let num := r.value * Nat.pow 10 (-exponent).toNat
  let den := r.den * Nat.pow 10 exponent.toNat
  let below : Scientific := ⟨num / den, exponent⟩
  let above : Scientific := ⟨num / den + 1, exponent⟩
  match r.holds below, r.holds above with
  | true, true => some (if 2 * (num % den) < den then below else above)
  | true, false => some below
  | false, true => some above
  | false, false => none

/-- The number without the zeros at its end, and how many these are. -/
def stripZeros : Nat → Nat → Nat × Nat
  | 0, n => (n, 0)
  | fuel + 1, n =>
    if n % 10 = 0 then let (m, zeros) := stripZeros fuel (n / 10); (m, zeros + 1) else (n, 0)

/-- The shortest decimal that reads back as the positive number `significand * 2 ^ exponent`, with
no zero at the end of its digits. Seventeen digits are always enough. -/
def shortest (significand : Nat) (exponent : Int) : Scientific :=
  let r := Rounding.ofBinary significand exponent
  let point := pointPosition r.value r.den
  let found := ((List.range 17).findSome? fun n => r.hit? point (n + 1)).getD default
  let (digits, zeros) := stripZeros 18 found.digits
  ⟨digits, found.exponent + zeros⟩

end Precedence.Decimal
