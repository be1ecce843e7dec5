import Precedence.Parse.Engine

/-!
Operators before, after and between operands. The power of an operator is the threshold for the
operand on its right; where operators of equal power associate to the right, the threshold is just
below, so that the operand takes them in.
-/
namespace Precedence

/-- Which of two equal operators in a row comes first. -/
inductive Associativity where
  | left
  | right
deriving DecidableEq, Inhabited

/-- The threshold for the right operand of an operator. -/
def Associativity.threshold (a : Associativity) (power : BindingPower) : BindingPower :=
  match a with
  | .left => power
  | .right => power.below

namespace Engine

/-- The node of an operator before its operand. -/
def prefixOperator (e : Engine) (power : BindingPower) (token : Token) : Parse NodeId := fun s => do
  let (operand, s) ← e.expression power s
  return s.alloc (.prefixed token.symbol operand) (s.rangeFrom token.range)

/-- The node of an operator after its operand. -/
def postfixOperator (left : NodeId) (token : Token) (s : Session) : NodeId × Session :=
  s.alloc (.postfixed token.symbol left) (s.rangeFrom (s.nodeRange left))

/-- The node of an operator between its operands, whose left one has been parsed. -/
def binaryOperator (e : Engine) (associativity : Associativity) (power : BindingPower)
    (left : NodeId) (token : Token) : Parse NodeId := fun s => do
  let (right, s) ← e.expression (associativity.threshold power) s
  return s.alloc (.binary left token.symbol right) (s.rangeFrom (s.nodeRange left))

/-- The node of a conditional expression, whose condition and first sign have been parsed. Another
conditional may follow in its last branch. -/
def ternary (e : Engine) (second : Symbol) (power : BindingPower) (condition : NodeId) :
    Parse NodeId := fun s => do
  let (thenBranch, s) ← e.expression .lowest s
  let (_, s) := s.expect e.symbols second
  let (elseBranch, s) ← e.expression power.below s
  return s.alloc (.ternary condition thenBranch elseBranch) (s.rangeFrom (s.nodeRange condition))

end Engine

end Precedence
