import Precedence.Arena.Basic
import Precedence.Diagnostic.Document
import Precedence.Lexer.Lexicon
import Precedence.Parse.Fault
import Precedence.Parse.Outcome

/-!
The state of one parse: the tokens still to come, the tree built so far, what has been reported,
and a record of outcomes that constructs may keep. Tokens are consumed in order; looking ahead makes
tokens known without consuming them, and it reports what the lexer found on the way to them, so a
fault of the lexer is reported exactly when the first token after it is looked at. Behind the last
token the end of the input is found as often as it is asked for. All tokens of a source are there
from the start; that nothing else would be seen if a lexer found each when it is asked for is shown
by `Session.Mirrors`.
-/
namespace Precedence

/-- The state of a parse. The tokens `ahead` have been looked at and are not yet consumed; those in
`upcoming` have not been looked at. The `record` tells nothing to the parse itself: outcomes are
added to it, the latest at the end, and it is read when the parse is over. -/
structure Session where
  source : List Char
  ahead : List Token
  upcoming : List Lexeme
  ending : Token
  previous : Token
  arena : Arena
  diagnostics : Diagnostics
  record : Array Outcome

instance : Inhabited Session := ⟨⟨[], [], [], default, default, .empty, .empty, #[]⟩⟩

namespace Session

/-- The start of a parse of the given tokens, at whose end the token `ending` is found. -/
def ofLexemes (source : List Char) (lexemes : List Lexeme) (ending : Token) : Session :=
  ⟨source, [], lexemes, ending, .empty .sof 0 .origin, .empty, .empty, #[]⟩

/-- The start of a parse of a source. Its first token is the start of the input, and what is found
at the end is the last token of the lexer. -/
def ofSource (lx : Lexicon) (source : List Char) : Session :=
  let lexemes := lx.lexemes source
  ofLexemes source (⟨.empty .sof 0 .origin, []⟩ :: lexemes) ((lexemes.getLast?.getD default).token)

/-! ### Tokens -/

/-- The session in which one more token has been looked at. -/
def reveal (s : Session) : Session :=
  match s.upcoming with
  | [] => { s with ahead := s.ahead ++ [s.ending] }
  | lexeme :: rest =>
    { s with
      ahead := s.ahead ++ [lexeme.token]
      upcoming := rest
      diagnostics := s.diagnostics.append lexeme.messages }

/-- The session in which `n` more tokens have been looked at. -/
def revealMany (s : Session) : Nat → Session
  | 0 => s
  | n + 1 => s.reveal.revealMany n

/-- The token that `n` more would have to be consumed before. -/
def lookahead (s : Session) (n : Nat) : Token × Session :=
  let s := s.revealMany (n + 1 - s.ahead.length)
  (s.ahead[n]?.getD s.ending, s)

/-- The next token, consumed. -/
def consume (s : Session) : Token × Session :=
  let (token, s) := s.lookahead 0
  (token, { s with ahead := s.ahead.drop 1, previous := token })

/-- The next `n` tokens, consumed. -/
def consumeMany (s : Session) : Nat → List Token × Session
  | 0 => ([], s)
  | n + 1 =>
    let (token, s) := s.consume
    let (tokens, s) := s.consumeMany n
    (token :: tokens, s)

/-- Whether the token `n` places ahead is of a kind. -/
def isAhead (s : Session) (symbol : Symbol) (n : Nat) : Bool × Session :=
  let (token, s) := s.lookahead n
  (token.symbol == symbol, s)

/-- Whether the next tokens from place `n` on are of the given kinds, in order. No token is looked
at behind the first that differs. -/
def areAheadFrom (s : Session) (n : Nat) : List Symbol → Bool × Session
  | [] => (true, s)
  | symbol :: symbols =>
    let (found, s) := s.isAhead symbol n
    if found then s.areAheadFrom (n + 1) symbols else (false, s)

/-- Whether the next token is of a kind. If it is, it is consumed. -/
def accept (s : Session) (symbol : Symbol) : Bool × Session :=
  let (found, s) := s.isAhead symbol 0
  if found then (true, s.consume.2) else (false, s)

/-- The kind of the next token if it is one of the given kinds, and then it is consumed. -/
def acceptAny (s : Session) (symbols : List Symbol) : Option Symbol × Session :=
  let (next, s) := s.lookahead 0
  if next.symbol ∈ symbols then (some next.symbol, s.consume.2) else (none, s)

/-! ### Messages -/

/-- The session with one more message. -/
def report (s : Session) (m : Message) : MessageId × Session :=
  let (id, diagnostics) := s.diagnostics.push m
  (id, { s with diagnostics })

/-- The session with a fault reported at a range. -/
def fault (s : Session) (symbols : SymbolTable) (f : SyntaxFault) (range : SourceRange) :
    MessageId × Session :=
  s.report (f.message symbols range)

/-- How many errors have been reported. -/
def errorCount (s : Session) : Nat := s.diagnostics.errorCount

/-- The next token if it is of the kind `wanted`, consumed. Otherwise nothing is consumed, and what
takes the place of the token is an invalid one of no width before the next. That is reported unless
the next token is itself invalid, for then the lexer has reported it. -/
def expect (s : Session) (symbols : SymbolTable) (wanted : Symbol) : Token × Session :=
  let (next, s) := s.lookahead 0
  if next.symbol = wanted then s.consume
  else
    let s :=
      if next.symbol = .invalid then s
      else (s.fault symbols (.expected wanted next.symbol) next.range).2
    (.empty .invalid next.range.span.start next.range.start, s)

/-! ### Nodes -/

/-- A new node. -/
def alloc (s : Session) (kind : NodeKind) (range : SourceRange) : NodeId × Session :=
  let (id, arena) := s.arena.alloc kind range
  (id, { s with arena })

/-- The range of a node. -/
def nodeRange (s : Session) (id : NodeId) : SourceRange := s.arena.range id

/-- The session with another range for a node. -/
def setRange (s : Session) (id : NodeId) (range : SourceRange) : Session :=
  { s with arena := s.arena.setRange id range }

/-- The session with a message attached to a node. -/
def attach (s : Session) (id : NodeId) (message : MessageId) : Session :=
  { s with arena := s.arena.attach id message }

/-- The range from the start of a range to the end of the token consumed last. -/
def rangeFrom (s : Session) (start : SourceRange) : SourceRange := start.merge s.previous.range

/-- The payload of a token. -/
def payload (s : Session) (token : Token) : List Char := token.payload s.source

/-- The node of an identifier. -/
def nameNode (s : Session) (token : Token) : NodeId × Session :=
  let (name, arena) := s.arena.internName (String.ofList (s.payload token))
  { s with arena }.alloc (.name name) token.range

/-- The node that stands for a token that cannot be parsed. -/
def invalidNode (s : Session) (token : Token) : NodeId × Session :=
  s.alloc (.invalid token.symbol) token.range

/-- The node that stands for a token that cannot be parsed, with a message attached. -/
def rejectedNode (s : Session) (token : Token) (m : Message) : NodeId × Session :=
  let (message, s) := s.report m
  let (node, s) := s.invalidNode token
  (node, s.attach node message)

/-- The session with a message of the grammar's own about a node, attached to it. -/
def reportOn (s : Session) (node : NodeId) (severity : Severity) (text : String) :
    MessageId × Session :=
  let (id, s) := s.report ⟨.grammarMessage, severity, text, s.nodeRange node⟩
  (id, s.attach node id)

/-! ### The record -/

/-- The session with one more outcome on its record. -/
def note (s : Session) (outcome : Outcome) : Session :=
  { s with record := s.record.push outcome }

end Session

end Precedence
