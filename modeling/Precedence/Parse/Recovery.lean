import Precedence.Parse.Session

/-!
Recovery: getting from a token that does not fit to one that does.
-/
namespace Precedence

/-- Symbols to stop at, in the order in which they were added and without repetition. -/
structure RecoverySet where
  symbols : List Symbol
deriving DecidableEq, Inhabited

namespace RecoverySet

/-- No symbol at all. -/
def empty : RecoverySet := ⟨[]⟩

/-- The set with a symbol. -/
def insert (r : RecoverySet) (symbol : Symbol) : RecoverySet :=
  if symbol ∈ r.symbols then r else ⟨r.symbols ++ [symbol]⟩

/-- The set with a symbol, if there is one. -/
def insertSome (r : RecoverySet) : Option Symbol → RecoverySet
  | none => r
  | some symbol => r.insert symbol

/-- Whether a symbol is in the set. -/
def contains (r : RecoverySet) (symbol : Symbol) : Bool := symbol ∈ r.symbols

end RecoverySet

/-- The session after tokens were consumed until the next is in the set or the input ends, and
whether such a token was found. The tokens skipped are not reported. -/
def Session.synchronize (recovery : RecoverySet) : Nat → Session → Option (Bool × Session)
  | 0, _ => none
  | rounds + 1, s =>
    let (next, s) := s.lookahead 0
    if recovery.contains next.symbol then some (true, s)
    else if next.symbol = .eof then some (false, s)
    else synchronize recovery rounds s.consume.2

end Precedence
