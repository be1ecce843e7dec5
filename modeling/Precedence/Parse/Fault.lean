import Precedence.Diagnostic.Message
import Precedence.Numeral
import Precedence.Symbol.Basic

/-!
What the parser finds wrong with a sequence of tokens. Each fault has one code and one wording; the
wording names symbols, so it depends on their table.
-/
namespace Precedence

/-- Something that is wrong with a sequence of tokens, or with the text of a literal. -/
inductive SyntaxFault where
  | expected (wanted found : Symbol)
  | expectedBoundary (separator terminator found : Symbol)
  | expectedExpression
  | noPrefix (found : Symbol)
  | noInfix (found : Symbol)
  | unterminated (terminator : Symbol)
  | invalidParameters
  | trailing (found : Symbol)
  | invalidNumber (error : NumeralError)
  | invalidEscape (sequence : List Char)
deriving DecidableEq

/-- A symbol as messages about tokens name it. The end of the input has a name of its own. -/
def SymbolTable.describeToken (t : SymbolTable) (s : Symbol) : String :=
  if s = .eof then "end of input" else t.describe s

namespace SyntaxFault

/-- The code of a fault. -/
def code : SyntaxFault → ErrorCode
  | .expected _ _ => .unexpectedToken
  | .expectedBoundary _ _ _ => .unexpectedToken
  | .expectedExpression => .noPrefix
  | .noPrefix _ => .noPrefix
  | .noInfix _ => .noInfix
  | .unterminated _ => .unterminatedSequence
  | .invalidParameters => .invalidParameter
  | .trailing _ => .trailingInput
  | .invalidNumber _ => .invalidNumber
  | .invalidEscape _ => .invalidEscape

/-- The wording of a fault. -/
def text (t : SymbolTable) : SyntaxFault → String
  | .expected wanted found =>
    "expected " ++ t.describeToken wanted ++ ", found " ++ t.describeToken found
  | .expectedBoundary separator terminator found =>
    "expected " ++ t.describeToken separator ++ " or " ++ t.describeToken terminator ++ ", found "
      ++ t.describeToken found
  | .expectedExpression => "expected expression, found end of input"
  | .noPrefix found => "could not parse prefix " ++ t.describeToken found
  | .noInfix found => "could not parse " ++ t.describeToken found
  | .unterminated terminator =>
    "expected " ++ t.describeToken terminator ++ " before end of input"
  | .invalidParameters => "lambda parameters must be names"
  | .trailing found => "unexpected trailing " ++ t.describeToken found
  | .invalidNumber error => error.message
  | .invalidEscape sequence => "invalid escape sequence '" ++ String.ofList sequence ++ "'"

/-- The message about a fault at a range. -/
def message (t : SymbolTable) (f : SyntaxFault) (range : SourceRange) : Message :=
  ⟨f.code, .error, f.text t, range⟩

end SyntaxFault

end Precedence
