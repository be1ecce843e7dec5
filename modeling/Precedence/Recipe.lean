import Precedence.Parse.Block
import Precedence.Parse.Sequence

/-!
Recipes: parselets written down as lists of actions. An action asks one thing of the session or of
the engine, may put nodes on a list, and has an outcome that tells what was found. At the end the
list of nodes becomes one node. Symbols are written by name and looked up when the action is taken;
a name that no symbol has stands for a symbol that no token is of.

A recipe may put the outcomes of its actions on the record of the session. Each goes there when its
action is done. An action may give rise to a recipe nested inside it, even to the same recipe, and
then what that one records comes first.
-/
namespace Precedence

/-- One step of a recipe. -/
inductive Action where
  | consume
  | consumeMany (count : Nat)
  | lookahead (place : Nat)
  | previous
  /-- The payload of the token consumed last. -/
  | previousText
  | previousSpan
  | isAhead (symbol : String)
  | isAheadAt (symbol : String) (place : Nat)
  | areAhead (symbols : List String)
  | accept (symbol : String)
  | acceptAny (symbols : List String)
  | expect (symbol : String)
  /-- An identifier, which is expected. -/
  | name
  /-- The token consumed last as an identifier, whatever it is. -/
  | nameNode
  | invalid
  | rejected (code : ErrorCode) (text : String)
  | expression (power : BindingPower)
  | statement (wrap : Bool)
  | block (separator : Option String) (terminator : String) (wrap : Bool)
  | separated (separator terminator : String) (power : BindingPower)
  | separatedUntil (separator : String) (power : BindingPower) (terminators : List String)
  | juxtaposed (power : BindingPower) (terminators : List String)
  | synchronize (symbols : List String)
  /-- An error at the token consumed last. -/
  | error (code : ErrorCode) (text : String)
  /-- A message about the latest node. -/
  | report (severity : Severity) (text : String)
  /-- The latest `count` nodes, or all of them, in a node of their own. -/
  | tag (symbol : String) (count : Nat)
  /-- One list of actions if the next token is of a kind, and another if it is not. -/
  | branch (symbol : String) (thenDo elseDo : List Action)
  | errorCount
  | describe (symbol : String)
  | describeNext
  /-- The range from the start of the construct to the token consumed last. -/
  | range
  | nodeCount

/-- What becomes of the nodes at the end of a recipe. -/
inductive RecipeResult where
  /-- One node for the construct, whose children they are. -/
  | tagged
  /-- The latest of them, or an invalid node if there is none. -/
  | last
deriving DecidableEq

/-- A parselet as a list of actions. -/
structure Recipe where
  actions : List Action
  result : RecipeResult

namespace Recipe

/-- Where a recipe is carried out: what it can ask, the token that it was chosen for, and the range
where its construct starts. -/
structure Context where
  engine : Engine
  token : Token
  start : SourceRange

/-- How far a recipe has come: the nodes on its list, and the session. -/
structure State where
  nodes : List NodeId
  session : Session

namespace State

/-- The outcome of a question that makes no node. -/
def asked {α : Type} (st : State) (outcome : α → Outcome) (answer : α × Session) :
    Outcome × State :=
  (outcome answer.1, { st with session := answer.2 })

/-- The outcome of what made a node, which goes on the list. -/
def added (st : State) (answer : NodeId × Session) : Outcome × State :=
  (.node answer.1, ⟨st.nodes ++ [answer.1], answer.2⟩)

/-- The outcome of what made several nodes, which go on the list. -/
def addedAll (st : State) (answer : List NodeId × Session) : Outcome × State :=
  (.nodes answer.1, ⟨st.nodes ++ answer.1, answer.2⟩)

end State

namespace Context

/-- The symbol of a name. -/
def symbol (k : Context) (name : String) : Symbol :=
  (k.engine.symbols.find? name).getD .foreign

/-- The node of an identifier that is expected, or of the stand-in for it. -/
def expectName (k : Context) (s : Session) : NodeId × Session :=
  let (token, s) := s.expect k.engine.symbols .name
  if token.symbol = .invalid then s.invalidNode token else s.nameNode token

/-- The outcome of a report about the latest node. Without a node nothing is reported. -/
def report (severity : Severity) (text : String) (st : State) : Outcome × State :=
  match st.nodes.getLast? with
  | none => (.message none, st)
  | some node => st.asked (fun id => .message (some id)) (st.session.reportOn node severity text)

/-- The outcome of tagging the latest nodes. -/
def tag (k : Context) (symbol : Symbol) (count : Nat) (st : State) : Outcome × State :=
  let kept := st.nodes.length - count
  { st with nodes := st.nodes.take kept }.added
    (st.session.alloc (.tagged symbol (st.nodes.drop kept)) (st.session.rangeFrom k.start))

mutual

/-- The outcome of an action, and the state after it. -/
def perform (k : Context) (action : Action) (st : State) : Option (Outcome × State) :=
  let s := st.session
  match action with
  | .consume => some (st.asked .token s.consume)
  | .consumeMany count => some (st.asked .tokens (s.consumeMany count))
  | .lookahead place => some (st.asked .token (s.lookahead place))
  | .previous => some (.token s.previous, st)
  | .previousText => some (.text (String.ofList (s.payload s.previous)), st)
  | .previousSpan => some (.span s.previous.range.span, st)
  | .isAhead symbol => some (st.asked .flag (s.isAhead (k.symbol symbol) 0))
  | .isAheadAt symbol place => some (st.asked .flag (s.isAhead (k.symbol symbol) place))
  | .areAhead symbols => some (st.asked .flag (s.areAheadFrom 0 (symbols.map k.symbol)))
  | .accept symbol => some (st.asked .flag (s.accept (k.symbol symbol)))
  | .acceptAny symbols => some (st.asked .symbol (s.acceptAny (symbols.map k.symbol)))
  | .expect symbol => some (st.asked .token (s.expect k.engine.symbols (k.symbol symbol)))
  | .name => some (st.added (k.expectName s))
  | .nameNode => some (st.added (s.nameNode s.previous))
  | .invalid => some (st.added (s.invalidNode s.previous))
  | .rejected code text =>
    some (st.added (s.rejectedNode s.previous ⟨code, .error, text, s.previous.range⟩))
  | .expression power => (k.engine.expression power s).map st.added
  | .statement wrap => (k.engine.statement wrap s).map st.added
  | .block separator terminator wrap =>
    (k.engine.block k.token.range (separator.map k.symbol) (k.symbol terminator) wrap s).map
      st.added
  | .separated separator terminator power =>
    (k.engine.separated (k.symbol separator) (k.symbol terminator) power s).map st.addedAll
  | .separatedUntil separator power terminators =>
    (k.engine.separatedUntil (k.symbol separator) power (terminators.map k.symbol) s).map
      st.addedAll
  | .juxtaposed power terminators =>
    (k.engine.juxtaposed power (terminators.map k.symbol) s).map st.addedAll
  | .synchronize symbols =>
    let recovery := (symbols.map k.symbol).foldl .insert .empty
    (s.synchronize recovery k.engine.rounds).map (st.asked .flag)
  | .error code text =>
    some (st.asked (fun id => .message (some id))
      (s.report ⟨code, .error, text, s.previous.range⟩))
  | .report severity text => some (report severity text st)
  | .tag symbol count => some (k.tag (k.symbol symbol) count st)
  | .branch symbol thenDo elseDo =>
    let (found, session) := s.isAhead (k.symbol symbol) 0
    let st := { st with session }
    let done := if found then k.performAll thenDo st else k.performAll elseDo st
    done.map fun (outcomes, st) => (.branch outcomes, st)
  | .errorCount => some (.count s.errorCount, st)
  | .describe symbol => some (.text (k.engine.symbols.describeToken (k.symbol symbol)), st)
  | .describeNext =>
    some (st.asked (fun next => .text (k.engine.symbols.describeToken next.symbol))
      (s.lookahead 0))
  | .range => some (.range (s.rangeFrom k.start), st)
  | .nodeCount => some (.count s.arena.size, st)

/-- The outcomes of actions in order, and the state after them. -/
def performAll (k : Context) (actions : List Action) (st : State) :
    Option (List Outcome × State) :=
  match actions with
  | [] => some ([], st)
  | action :: actions => do
    let (outcome, st) ← k.perform action st
    let (outcomes, st) ← k.performAll actions st
    return (outcome :: outcomes, st)

end

/-- The state after actions in order. Each outcome is put on the record before the next action. -/
def recordAll (k : Context) : List Action → State → Option State
  | [], st => some st
  | action :: actions, st => do
    let (outcome, st) ← k.perform action st
    k.recordAll actions { st with session := st.session.note outcome }

end Context

/-- The node of a construct whose recipe has been carried out. -/
def finish (r : Recipe) (k : Context) (st : State) : NodeId × Session :=
  let s := st.session
  match r.result, st.nodes.getLast? with
  | .tagged, _ => s.alloc (.tagged k.token.symbol st.nodes) (s.rangeFrom k.start)
  | .last, some node => (node, s)
  | .last, none => s.invalidNode k.token

/-- The recipe as a parselet for what starts with a token, or for what stands in the place of a
statement. -/
def fromToken (r : Recipe) (e : Engine) (token : Token) : Parse NodeId := fun s => do
  let k : Context := ⟨e, token, token.range⟩
  let (_, st) ← k.performAll r.actions ⟨[], s⟩
  return r.finish k st

/-- The recipe as a parselet for what starts with a token, with every outcome on the record. -/
def fromTokenRecorded (r : Recipe) (e : Engine) (token : Token) : Parse NodeId := fun s => do
  let k : Context := ⟨e, token, token.range⟩
  let st ← k.recordAll r.actions ⟨[], s⟩
  return r.finish k st

/-- The recipe as a parselet for what goes on from an operand, which is the first node on its
list. -/
def fromOperand (r : Recipe) (e : Engine) (left : NodeId) (token : Token) : Parse NodeId :=
  fun s => do
    let k : Context := ⟨e, token, s.nodeRange left⟩
    let (_, st) ← k.performAll r.actions ⟨[left], s⟩
    return r.finish k st

end Recipe

end Precedence
