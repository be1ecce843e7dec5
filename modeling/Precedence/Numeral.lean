import Precedence.Lexer.Number
import Precedence.Literal

/-!
The values of number literals. Digit separators are dropped first. A literal with a base mark is a
whole number to that base, one with a fraction or an exponent is a floating-point number, and any
other is a decimal whole number; a whole number is signed exactly when a minus sign stands before
it, and it has to fit 64 bits.
-/
namespace Precedence

/-- Why the text of a literal has no value. -/
inductive NumeralError where
  | noDigits
  | outOfRange (text : String)
  | malformed (text : String)
deriving DecidableEq

/-- The wording of a literal without a value. -/
def NumeralError.message : NumeralError → String
  | .noDigits => "number literal has no digits"
  | .outOfRange text => "number literal '" ++ text ++ "' is out of range"
  | .malformed text => "invalid number literal '" ++ text ++ "'"

namespace Numeral

/-- The bound of unsigned whole numbers. -/
def unsignedLimit : Nat := Nat.pow 2 64

/-- The greatest magnitude of a negated whole number. -/
def signedLimit : Nat := Nat.pow 2 63

/-- A whole number as a literal, if it fits. -/
def integer? (negative : Bool) (magnitude : Nat) : Option Literal :=
  if negative then
    if magnitude ≤ signedLimit then some (.signed (-(magnitude : Int))) else none
  else if magnitude < unsignedLimit then some (.unsigned magnitude) else none

/-- The base that is marked in front of a literal. -/
def markedRadix? : List Char → Option Radix
  | '0' :: mark :: _ =>
    if mark = 'x' ∨ mark = 'X' then some .hexadecimal
    else if mark = 'b' ∨ mark = 'B' then some .binary
    else none
  | _ => none

/-- The text after a minus sign, if one is in front, and whether one is. -/
def splitSign : List Char → Bool × List Char
  | '-' :: cs => (true, cs)
  | cs => (false, cs)

/-- Whether an unsigned literal is written with a fraction or an exponent. -/
def isFractional (separators : Separators) (cs : List Char) : Bool :=
  cs.any fun c => c == separators.fraction || c == 'e' || c == 'E'

/-- The text with a point in the place of the fraction separator. -/
def withPoint (separators : Separators) (cs : List Char) : List Char :=
  cs.map fun c => if c = separators.fraction then '.' else c

/-- The value of a literal. -/
def parse (separators : Separators) (text : List Char) : Except NumeralError Literal :=
  let cleaned := text.filter fun c => separators.digit != some c
  let (negative, body) := splitSign cleaned
  let outOfRange := NumeralError.outOfRange (String.ofList text)
  let malformed := NumeralError.malformed (String.ofList text)
  match markedRadix? body with
  | some radix =>
    if body.drop 2 = [] then .error .noDigits
    else
      match (radix.read? (body.drop 2)).bind (integer? negative) with
      | some literal => .ok literal
      | none => .error outOfRange
  | none =>
    if isFractional separators body then
      match Decimal.Binary64.read? (withPoint separators cleaned) with
      | some value => .ok (.float value)
      | none => .error malformed
    else if body ≠ [] ∧ body.all Char.isDigit then
      match integer? negative (Decimal.digitsValue body) with
      | some literal => .ok literal
      | none => .error outOfRange
    else .error malformed

end Numeral

end Precedence
