import Precedence.Symbol.Basic
import Precedence.Literal

/-!
The shapes of tree nodes. A node names its children by number, so a shape by itself says nothing of
whether they exist.
-/
namespace Precedence

/-- The number of a node in an arena. -/
structure NodeId where
  index : Nat
deriving DecidableEq, Inhabited

/-- The number of an identifier in the name table of an arena. -/
structure NameId where
  index : Nat
deriving DecidableEq, Inhabited

/-- The number of a message in a document. -/
structure MessageId where
  index : Nat
deriving DecidableEq, Inhabited

/-- The shape of a node. Operators are kept as the symbols that introduced them. -/
inductive NodeKind where
  /-- Input that could not be parsed, by the symbol of the token that it stands for. -/
  | invalid (symbol : Symbol)
  | literal (value : Literal)
  | name (id : NameId)
  | prefixed (op : Symbol) (operand : NodeId)
  | postfixed (op : Symbol) (operand : NodeId)
  | binary (left : NodeId) (op : Symbol) (right : NodeId)
  | ternary (condition thenBranch elseBranch : NodeId)
  /-- A parenthesised expression, where a grammar keeps the parentheses. -/
  | group (inner : NodeId)
  | tuple (items : List NodeId)
  | call (callee : NodeId) (args : List NodeId)
  | lambda (params : List NodeId) (body : NodeId)
  | block (children : List NodeId) (separator : Option Symbol) (terminator : Symbol)
  /-- An expression in the place of a statement. -/
  | statement (inner : NodeId)
  /-- A construct that a grammar defines for itself. -/
  | tagged (tag : Symbol) (children : List NodeId)
deriving DecidableEq, Inhabited

namespace NodeKind

/-- The children in source order: a callee before its arguments, parameters before their body. -/
def children : NodeKind → List NodeId
  | .invalid _ | .literal _ | .name _ => []
  | .prefixed _ operand | .postfixed _ operand => [operand]
  | .binary left _ right => [left, right]
  | .ternary condition thenBranch elseBranch => [condition, thenBranch, elseBranch]
  | .group inner | .statement inner => [inner]
  | .tuple items => items
  | .call callee args => callee :: args
  | .lambda params body => params ++ [body]
  | .block children _ _ | .tagged _ children => children

/-- Whether the node stands for input that could not be parsed. -/
def isInvalid : NodeKind → Bool
  | .invalid _ => true
  | _ => false

/-- Whether the node is an identifier. -/
def isName : NodeKind → Bool
  | .name _ => true
  | _ => false

end NodeKind

end Precedence
