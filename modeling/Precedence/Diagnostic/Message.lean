import Precedence.Diagnostic.Code
import Precedence.Source.Range

/-!
Messages: what is reported about a place in a source, and how grave it is.
-/
namespace Precedence

/-- How grave a message is. -/
inductive Severity where
  | info
  | warning
  | error
deriving DecidableEq, Inhabited

namespace Severity

/-- The severities in order, from the least grave on. -/
def rank : Severity → Nat
  | .info => 0
  | .warning => 1
  | .error => 2

/-- Whether one severity is less grave than another. -/
def isLess (s t : Severity) : Bool := s.rank < t.rank

/-- The severity in writing. -/
def label : Severity → String
  | .info => "info"
  | .warning => "warning"
  | .error => "error"

end Severity

/-- Something reported about a range of a source. -/
structure Message where
  code : ErrorCode
  severity : Severity
  text : String
  range : SourceRange
deriving DecidableEq, Inhabited

namespace Message

/-- Whether the message is an error. -/
def isError (m : Message) : Bool := m.severity == .error

/-- The message in one line, behind the place where its range starts. -/
def line (filename : String) (m : Message) : String :=
  filename ++ ":" ++ m.range.start.text ++ " " ++ m.severity.label ++ "[" ++ m.code.label ++ "]: "
    ++ m.text

end Message

end Precedence
