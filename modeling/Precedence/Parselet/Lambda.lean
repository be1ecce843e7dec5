import Precedence.Parse.Engine

/-!
Functions without a name. What stands before the arrow has been parsed as an expression; it is a
parameter list if it is a name, a name in a group, or a tuple of names.
-/
namespace Precedence

/-- The parameters that an expression lists. The items of a tuple become the parameters themselves,
and the tuple is left behind. -/
def Arena.parameters? (a : Arena) (left : NodeId) : Option (List NodeId) :=
  match a.kind? left with
  | some (.name _) => some [left]
  | some (.group inner) => if a.isName inner then some [left] else none
  | some (.tuple items) => if items.all a.isName then some items else none
  | _ => none

/-- The node of a function, whose parameters and arrow have been parsed. The body reaches as far as
possible. Where the expression is no parameter list, it is the one parameter, and the fault is
attached to it. -/
def Engine.lambda (e : Engine) (power : BindingPower) (left : NodeId) : Parse NodeId := fun s => do
  let params := s.arena.parameters? left
  let (body, s) ← e.expression power.below s
  let (node, s) := s.alloc (.lambda (params.getD [left]) body) (s.rangeFrom (s.nodeRange left))
  if params.isSome then
    return (node, s)
  let (message, s) := s.fault e.symbols .invalidParameters (s.nodeRange left)
  return (node, s.attach left message)

end Precedence
