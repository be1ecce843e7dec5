import Precedence.Parse.Power
import Precedence.Parse.Session

/-!
What a construct may ask of the engine that parses it. Constructs contain expressions and
statements, so parsing them is recursive; the recursion is kept out of the constructs by handing
each of them an engine, whose two parsers stand for everything nested inside. A parser has no result
when it runs out of the depth or the number of rounds that it was given, and in no other case:
faults of the input are reported in the session and never stop a parse.
-/
namespace Precedence

/-- A parser: a result and the session after it, or nothing if the bounds were too low. -/
abbrev Parse (α : Type) := Session → Option (α × Session)

/-- What a block does about the tokens between a statement and the next boundary. -/
inductive RecoveryPolicy where
  /-- Skip them in silence. -/
  | skipToBoundary
  /-- Go on with the next of them as with a new statement. -/
  | none
deriving DecidableEq, Inhabited

/-- The parsers for what is nested in a construct, with what they depend on. A loop of a construct
may take as many turns as there are `rounds`. -/
structure Engine where
  symbols : SymbolTable
  recovery : RecoveryPolicy
  rounds : Nat
  expression : BindingPower → Parse NodeId
  statement : (wrap : Bool) → Parse NodeId

end Precedence
