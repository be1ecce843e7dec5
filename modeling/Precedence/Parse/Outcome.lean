import Precedence.Arena.Kind
import Precedence.Token

/-!
What is found when one thing is asked of a parse. Outcomes are data about the tokens, the nodes and
the messages of the parse, and hold no part of its state, so they can be kept and read at its end.
-/
namespace Precedence

/-- What an action found. -/
inductive Outcome where
  | flag (value : Bool)
  | count (value : Nat)
  | text (value : String)
  | span (value : Span)
  | range (value : SourceRange)
  | symbol (value : Option Symbol)
  | token (value : Token)
  | tokens (values : List Token)
  | node (id : NodeId)
  | nodes (ids : List NodeId)
  | message (id : Option MessageId)
  /-- The outcomes of several actions that are part of one. -/
  | branch (outcomes : List Outcome)
deriving Inhabited

end Precedence
