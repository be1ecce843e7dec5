import Precedence.Escape
import Precedence.Parse.Engine

/-!
Constructs of a single token: literals. A literal without a value still makes a node, an invalid
one for a number and the rest of the text for a string; what is wrong is attached to that node.
-/
namespace Precedence.Engine

/-- The node of a number. A number without digits is reported by the lexer and not again here. -/
def number (e : Engine) (separators : Separators) (token : Token) (s : Session) :
    NodeId × Session :=
  match Numeral.parse separators (s.payload token) with
  | .ok literal => s.alloc (.literal literal) token.range
  | .error .noDigits => s.invalidNode token
  | .error error =>
    s.rejectedNode token ((SyntaxFault.invalidNumber error).message e.symbols token.range)

/-- The node of a truth value, which is true if its text is `true` in any case. -/
def boolean (token : Token) (s : Session) : NodeId × Session :=
  let value := Text.agreesUpToCase (s.payload token) "true".toList
  s.alloc (.literal (.boolean value)) token.range

/-- The place of a bad escape in the source. The content starts where the token's text does, and
the positions are counted from the start of the token. -/
def escapeRange (source : List Char) (token : Token) (content : List Char) (e : InvalidEscape) :
    SourceRange :=
  let opening := Span.slice ⟨token.range.span.start, token.text.start⟩ source
  let before := Span.slice ⟨0, e.offset⟩ content
  let start := (token.range.start.advance opening).advance before
  let offset := token.text.start + e.offset
  ⟨⟨offset, offset + e.length⟩, start, start.advance e.sequence⟩

/-- The session with each of the faults reported and attached to a node, in order. -/
def attachFaults (e : Engine) (node : NodeId) (faults : List (SyntaxFault × SourceRange))
    (s : Session) : Session :=
  faults.foldl (fun s (fault, range) =>
    let (message, s) := s.fault e.symbols fault range
    s.attach node message) s

/-- The node of a string. Its text is resolved if there is an escape character, and taken as it is
otherwise. -/
def string (e : Engine) (escape : Option Char) (token : Token) (s : Session) : NodeId × Session :=
  let content := s.payload token
  match escape with
  | none => s.alloc (.literal (.string (String.ofList content))) token.range
  | some escape =>
    let resolved := unescape escape content
    let faults := resolved.errors.map fun error =>
      (SyntaxFault.invalidEscape error.sequence, escapeRange s.source token content error)
    let (node, s) := s.alloc (.literal (.string (String.ofList resolved.value))) token.range
    (node, e.attachFaults node faults s)

end Precedence.Engine
