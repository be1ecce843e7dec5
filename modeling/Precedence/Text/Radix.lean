/-!
Whole numbers to the bases two and sixteen. A number is a run of digits of the base, behind a plus
sign or not; no other sign, mark or separator belongs to it.
-/
namespace Precedence

/-- The base of a number that is not decimal. -/
inductive Radix where
  | binary
  | hexadecimal
deriving DecidableEq, Inhabited

namespace Radix

/-- The base as a number. -/
def base : Radix → Nat
  | .binary => 2
  | .hexadecimal => 16

/-- The base in words. -/
def adjective : Radix → String
  | .binary => "binary"
  | .hexadecimal => "hexadecimal"

/-- The value of a hexadecimal digit, and so of a digit of any lower base. -/
def digitValue? (c : Char) : Option Nat :=
  if c.isDigit then some (c.toNat - 48)
  else if 'a' ≤ c ∧ c ≤ 'f' then some (c.toNat - 87)
  else if 'A' ≤ c ∧ c ≤ 'F' then some (c.toNat - 55)
  else none

/-- Whether a character is a digit of the base. -/
def isDigit (r : Radix) (c : Char) : Bool := (digitValue? c).any (· < r.base)

/-- The value of a run of digits of the base. -/
def value (r : Radix) (cs : List Char) : Nat :=
  cs.foldl (fun n c => r.base * n + (digitValue? c).getD 0) 0

/-- The text without the plus sign in front. -/
def withoutPlus : List Char → List Char
  | '+' :: cs => cs
  | cs => cs

/-- The number that a text denotes to the base, whatever its size. -/
def read? (r : Radix) (cs : List Char) : Option Nat :=
  let digits := withoutPlus cs
  if digits ≠ [] ∧ digits.all r.isDigit then some (r.value digits) else none

end Radix

end Precedence
