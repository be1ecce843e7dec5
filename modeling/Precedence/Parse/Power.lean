/-!
Binding powers: how tightly an operator holds its operands. The named levels lie ten apart, so that
a grammar can put operators of its own between them.
-/
namespace Precedence

/-- The power of an operator, or the threshold that the operators of an operand have to exceed. -/
abbrev BindingPower := Nat

namespace BindingPower

/-- The threshold that every operator with a power exceeds. A symbol that is no operator has this
power, so it ends any operand. -/
def lowest : BindingPower := 0

/-- The level of assignments. -/
def assignment : BindingPower := 10

/-- The level of conditional expressions. -/
def conditional : BindingPower := 20

/-- The level of sums. -/
def sum : BindingPower := 30

/-- The level of products. -/
def product : BindingPower := 40

/-- The level of exponents. -/
def exponent : BindingPower := 50

/-- The level of operators before their operand. -/
def prefixed : BindingPower := 60

/-- The level of operators after their operand. -/
def postfixed : BindingPower := 70

/-- The level of calls. -/
def call : BindingPower := 80

/-- The threshold just below a power, which lets operators of that power into the operand. -/
def below (power : BindingPower) : BindingPower := power - 1

/-- The power in writing. -/
def text (power : BindingPower) : String := "bp(" ++ toString power ++ ")"

end BindingPower

end Precedence
