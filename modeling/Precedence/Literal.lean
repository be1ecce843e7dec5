import Precedence.Decimal.Notation
import Precedence.Text.Quoted

/-!
The values of literals. Whole numbers are unsigned unless they are negated, and each kind has 64
bits; the limits are kept where a literal is read, not here.
-/
namespace Precedence

/-- The value of a literal. -/
inductive Literal where
  | unsigned (value : Nat)
  | signed (value : Int)
  | float (value : Decimal.Binary64)
  | string (value : String)
  | boolean (value : Bool)
deriving DecidableEq, Inhabited

/-- A literal in writing: numbers in decimal, strings in quotation marks. -/
def Literal.text : Literal → String
  | .unsigned value => toString value
  | .signed value => toString value
  | .float value => value.text
  | .string value => Text.quoted value
  | .boolean value => if value then "true" else "false"

end Precedence
