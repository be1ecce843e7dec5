/-!
The binary floating-point numbers of 64 bits, as the exact numbers that they stand for. A finite
one is a sign, a significand below `2 ^ 53` and a power of two; the sign is kept for zero as well.
Nothing here computes with machine floats, so every statement about rounding is one about `Nat`.
-/
namespace Precedence.Decimal

/-- A floating-point number of 64 bits. A finite one is `significand * 2 ^ exponent`. -/
inductive Binary64 where
  | nan
  | infinite (negative : Bool)
  | finite (negative : Bool) (significand : Nat) (exponent : Int)
deriving DecidableEq, Inhabited

/-- The quotient as a whole number, rounded to the nearest, a half to the even neighbour. -/
def roundedQuotient (num den : Nat) : Nat :=
  let q := num / den
  let twice := 2 * (num % den)
  if twice < den then q
  else if den < twice then q + 1
  else if q % 2 = 0 then q else q + 1

namespace Binary64

/-- The least exponent, at which the significand may be small. -/
def leastExponent : Int := -1074

/-- The greatest exponent. -/
def greatestExponent : Int := 971

/-- The bound of the significand. -/
def significandLimit : Nat := Nat.pow 2 53

/-- Zero with a sign. -/
def zero (negative : Bool) : Binary64 := .finite negative 0 leastExponent

/-- The positive quotient `num / den` divided by a power of two, as a quotient again. -/
def scaleDown (num den : Nat) (exponent : Int) : Nat × Nat :=
  if exponent < 0 then (num * Nat.pow 2 (-exponent).toNat, den)
  else (num, den * Nat.pow 2 exponent.toNat)

/-- The exponent at which a positive quotient has a significand of 53 bits, or the least exponent
if it is too small for that. -/
def exponentFor (num den : Nat) : Int :=
  let guess : Int := (Nat.log2 num : Int) - (Nat.log2 den : Int)
  let (n, d) := scaleDown num den guess
  max leastExponent (if n < d then guess - 53 else guess - 52)

/-- The number nearest to the positive quotient `num / den`, an exact half going to the even
significand, and infinity from the half beyond the greatest finite number on. -/
def ofQuotient (negative : Bool) (num den : Nat) : Binary64 :=
  let exponent := exponentFor num den
  let (n, d) := scaleDown num den exponent
  let rounded := roundedQuotient n d
  let (significand, exponent) :=
    if rounded = significandLimit then (rounded / 2, exponent + 1) else (rounded, exponent)
  if greatestExponent < exponent then .infinite negative
  else .finite negative significand exponent

/-- The number nearest to `digits * 10 ^ exponent`. The powers of ten that are far out of range are
decided by the number of digits, so that no large power is ever computed for them. -/
def ofDecimal (negative : Bool) (digits : Nat) (exponent : Int) : Binary64 :=
  if digits = 0 then zero negative
  else
    let magnitude : Int := ((Nat.toDigits 10 digits).length : Int) + exponent
    if 310 < magnitude then .infinite negative
    else if magnitude < -330 then zero negative
    else if exponent < 0 then ofQuotient negative digits (Nat.pow 10 (-exponent).toNat)
    else ofQuotient negative (digits * Nat.pow 10 exponent.toNat) 1

end Binary64

end Precedence.Decimal
