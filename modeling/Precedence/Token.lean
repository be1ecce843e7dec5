import Precedence.Symbol.Basic
import Precedence.Source.Range

/-!
Tokens. The range covers everything that was read; the text covers the payload, which is less only
for literals such as strings, whose delimiters belong to the range alone.
-/
namespace Precedence

/-- A piece of the input with its kind. -/
structure Token where
  symbol : Symbol
  range : SourceRange
  text : Span
deriving DecidableEq, Inhabited

namespace Token

/-- A token whose payload is all of it. -/
def covering (symbol : Symbol) (range : SourceRange) : Token := ⟨symbol, range, range.span⟩

/-- A token of no width. -/
def empty (symbol : Symbol) (offset : Nat) (at_ : Position) : Token :=
  covering symbol (.point offset at_)

/-- The payload in its source. -/
def payload (t : Token) (source : List Char) : List Char := t.text.slice source

end Token

end Precedence
