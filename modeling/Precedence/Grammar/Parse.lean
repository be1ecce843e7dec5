import Precedence.Arena.Dump
import Precedence.Diagnostic.Terminal
import Precedence.Grammar.Basic

/-!
Parsing by operator precedence. An expression is what starts with its first token, and then
whatever goes on from there with an operator that binds more tightly than the threshold. An engine
of some depth parses what is nested up to that depth. Each level of nesting consumes a token of its
own, so the number of tokens bounds the depth that a source can need, and the turns of every loop
as well.
-/
namespace Precedence

namespace Grammar

/-- The node of what starts with a token that has been consumed. The end of the input and invalid
tokens start nothing, whatever is registered for them. -/
def startExpression (g : Grammar) (e : Engine) (token : Token) : Parse NodeId := fun s =>
  if token.symbol = .eof then
    s.rejectedNode token (SyntaxFault.expectedExpression.message e.symbols token.range)
  else if token.symbol = .invalid then s.invalidNode token
  else
    match g.prefixFor? token.symbol with
    | some parselet => e.parsePrefix parselet token s
    | none =>
      s.rejectedNode token ((SyntaxFault.noPrefix token.symbol).message e.symbols token.range)

/-- The node of an expression of which a part has been parsed, which goes on through the operators
that bind more tightly than the threshold. -/
def continueExpression (g : Grammar) (e : Engine) (threshold : BindingPower) :
    Nat → NodeId → Parse NodeId
  | 0, _, _ => none
  | rounds + 1, left, s => do
    let (next, s) := s.lookahead 0
    if g.power next.symbol ≤ threshold then
      return (left, s)
    let (token, s) := s.consume
    match g.infixFor? token.symbol with
    | none => return (left, (s.fault e.symbols (.noInfix token.symbol) token.range).2)
    | some parselet =>
      let (left, s) ← e.parseInfix parselet left token s
      g.continueExpression e threshold rounds left s

/-- The node of an expression whose operators bind more tightly than the threshold. -/
def parseExpression (g : Grammar) (e : Engine) (threshold : BindingPower) : Parse NodeId :=
  fun s => do
    let (token, s) := s.consume
    let (left, s) ← g.startExpression e token s
    g.continueExpression e threshold e.rounds left s

/-- The node of a statement: of what the grammar registers for the next token as a statement, or of
an expression, in a node of its own if it is to be wrapped. -/
def parseStatement (g : Grammar) (e : Engine) (wrap : Bool) : Parse NodeId := fun s => do
  let (next, s) := s.lookahead 0
  match g.statementFor? next.symbol with
  | some parselet =>
    let (token, s) := s.consume
    parselet.parse e token s
  | none =>
    let (expression, s) ← g.parseExpression e .lowest s
    if wrap then
      return s.alloc (.statement expression) (s.nodeRange expression)
    else
      return (expression, s)

/-- The engine of a depth. At depth zero nothing can be parsed. -/
def engine (g : Grammar) (rounds : Nat) : Nat → Engine
  | 0 => ⟨g.symbols, g.options.recovery, rounds, fun _ _ => none, fun _ _ => none⟩
  | depth + 1 =>
    { symbols := g.symbols
      recovery := g.options.recovery
      rounds := rounds
      expression := fun threshold s => g.parseExpression (g.engine rounds depth) threshold s
      statement := fun wrap s => g.parseStatement (g.engine rounds depth) wrap s }

/-- The node of a whole source. A grammar that registers a parselet for the start of the input
decides by it what a source is. -/
def parseRoot (g : Grammar) (e : Engine) : Parse NodeId := fun s => do
  if (g.prefixFor? .sof).isSome then
    e.expression .lowest s
  else
    let (start, s) := s.consume
    if g.options.statementsAtTopLevel then
      e.block start.range none .eof true s
    else
      e.expression .lowest s

/-- The session in which input that is left over has been reported, if that is asked for. -/
def checkEnd (g : Grammar) (s : Session) : Session :=
  if g.options.enforceEnd then
    let (next, s) := s.lookahead 0
    if next.symbol = .eof then s
    else (s.fault g.symbols (.trailing next.symbol) next.range).2
  else s

end Grammar

/-- What parsing a source yields: a tree in its arena, and the source with everything reported. -/
structure Parsed where
  arena : Arena
  root : NodeId
  document : Document
deriving Inhabited

namespace Parsed

/-- What a session yields when its root has been parsed. -/
def ofSession (filename source : String) (root : NodeId) (s : Session) : Parsed :=
  ⟨s.arena, root, ⟨filename, source, s.diagnostics⟩⟩

/-- The messages attached to a node, in the order in which they were attached. -/
def nodeMessages (p : Parsed) (id : NodeId) : List Message :=
  match p.arena.node? id with
  | none => []
  | some node => node.messages.filterMap p.document.diagnostics.get?

end Parsed

namespace Grammar

/-- A bound for the nesting and for the turns of loops in a session: the number of tokens that are
left, and some for what happens at their end. -/
def bound (s : Session) : Nat := s.ahead.length + s.upcoming.length + 4

/-- The root of a source, and the session in which all of it has been parsed. There is no result
only if some loop of the grammar never ends at the end of the input. -/
def parseSession? (g : Grammar) (source : String) : Option (NodeId × Session) := do
  let s := Session.ofSource g.lexicon source.toList
  let (root, s) ← g.parseRoot (g.engine (bound s) (bound s)) s
  return (root, g.checkEnd s)

/-- What parsing a source yields, if there is a result. -/
def parse? (g : Grammar) (filename source : String) : Option Parsed :=
  (g.parseSession? source).map fun (root, s) => .ofSession filename source root s

end Grammar

end Precedence
