import Precedence.Decimal.Shortest

/-!
Floating-point numbers in writing. A number is written with the fewest digits that read back, in
positions from `0.0001` to below `10 ^ 16` and with an exponent outside; written in positions, it
always has a point. Reading accepts more than what is written: signs, a point without digits on one
of its sides, and exponents of any size.
-/
namespace Precedence.Decimal

/-- The first `n` of the digits, with zeros to fill up. -/
private def paddedRight (n : Nat) (digits : List Char) : List Char :=
  digits ++ List.replicate (n - digits.length) '0'

/-- A decimal in positions, with at least one digit on either side of the point. -/
def positional (d : Scientific) : List Char :=
  let digits := Nat.toDigits 10 d.digits
  let point : Int := digits.length + d.exponent
  if point ≤ 0 then
    ['0', '.'] ++ List.replicate (-point).toNat '0' ++ digits
  else
    let whole := (paddedRight point.toNat digits).take point.toNat
    let fraction := digits.drop point.toNat
    whole ++ '.' :: (if fraction.isEmpty then ['0'] else fraction)

/-- A decimal with one digit before the point and an exponent, and no point after a single
digit. -/
def withExponent (d : Scientific) : List Char :=
  let digits := Nat.toDigits 10 d.digits
  let exponent : Int := digits.length + d.exponent - 1
  let mantissa := match digits with
    | first :: second :: rest => first :: '.' :: second :: rest
    | _ => digits
  mantissa ++ 'e' :: (toString exponent).toList

/-- Whether a decimal is written in positions: its first digit stands between the fourth place
after the point and the sixteenth before it. -/
def isPositional (d : Scientific) : Bool :=
  let point : Int := (Nat.toDigits 10 d.digits).length + d.exponent
  0 ≤ point + 3 && point ≤ 16

/-- A floating-point number in writing. -/
def Binary64.text : Binary64 → String
  | .nan => "NaN"
  | .infinite negative => if negative then "-inf" else "inf"
  | .finite negative significand exponent =>
    let magnitude :=
      if significand = 0 then "0.0".toList
      else
        let d := shortest significand exponent
        if isPositional d then positional d else withExponent d
    String.ofList (if negative then '-' :: magnitude else magnitude)

/-- The value of a list of decimal digits. -/
def digitsValue (cs : List Char) : Nat := cs.foldl (fun n c => 10 * n + (c.toNat - 48)) 0

/-- A sign, if there is one, and what follows it. -/
def readSign : List Char → Bool × List Char
  | '-' :: rest => (true, rest)
  | '+' :: rest => (false, rest)
  | rest => (false, rest)

/-- An exponent part up to the end of the text. No text at all is the exponent zero. -/
def readExponent? : List Char → Option Int
  | [] => some 0
  | mark :: rest =>
    if mark = 'e' ∨ mark = 'E' then
      let (negative, digits) := readSign rest
      if digits ≠ [] ∧ digits.all Char.isDigit then
        some (if negative then -(digitsValue digits : Int) else digitsValue digits)
      else none
    else none

/-- An unsigned decimal: digits with at most one point among or beside them, and an exponent. -/
def readMagnitude? (cs : List Char) : Option Scientific :=
  let whole := cs.takeWhile Char.isDigit
  let (fraction, rest) := match cs.dropWhile Char.isDigit with
    | '.' :: after => (after.takeWhile Char.isDigit, after.dropWhile Char.isDigit)
    | after => ([], after)
  if whole = [] ∧ fraction = [] then none
  else
    (readExponent? rest).map fun exponent =>
      ⟨digitsValue (whole ++ fraction), exponent - fraction.length⟩

/-- The floating-point number that a text denotes: a decimal, or one of the words `inf`, `infinity`
and `nan` in any case, with a sign in front or not. -/
def Binary64.read? (cs : List Char) : Option Binary64 :=
  let (negative, rest) := readSign cs
  let word := String.ofList (rest.map Char.toLower)
  if word = "inf" ∨ word = "infinity" then some (.infinite negative)
  else if word = "nan" then some .nan
  else (readMagnitude? rest).map fun d => .ofDecimal negative d.digits d.exponent

end Precedence.Decimal
