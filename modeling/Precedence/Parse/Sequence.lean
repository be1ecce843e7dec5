import Precedence.Parse.Engine

/-!
Sequences of expressions: separated ones up to a terminator, which is consumed or left, and
juxtaposed ones. Every turn of these loops consumes at least the first token of an expression.
-/
namespace Precedence.Engine

/-- Separated expressions up to a terminator, which is consumed, behind the items found before,
which are in reverse. A separator may stand before the terminator; a missing terminator is
reported. -/
def separatedFrom (e : Engine) (separator terminator : Symbol) (power : BindingPower) :
    Nat → List NodeId → Parse (List NodeId)
  | 0, _, _ => none
  | rounds + 1, items, s => do
    let (closed, s) := s.accept terminator
    if closed then
      return (items.reverse, s)
    let (next, s) := s.lookahead 0
    if next.symbol = .eof then
      return (items.reverse, (s.fault e.symbols (.unterminated terminator) next.range).2)
    let (item, s) ← e.expression power s
    let (goesOn, s) := s.accept separator
    if goesOn then
      e.separatedFrom separator terminator power rounds (item :: items) s
    else
      return ((item :: items).reverse, (s.expect e.symbols terminator).2)

/-- Separated expressions up to a terminator, which is consumed. -/
def separated (e : Engine) (separator terminator : Symbol) (power : BindingPower) :
    Parse (List NodeId) :=
  e.separatedFrom separator terminator power e.rounds []

/-- Separated expressions up to one of several terminators, which is left, behind the items found
before, which are in reverse. -/
def separatedUntilFrom (e : Engine) (separator : Symbol) (power : BindingPower)
    (terminators : List Symbol) : Nat → List NodeId → Parse (List NodeId)
  | 0, _, _ => none
  | rounds + 1, items, s => do
    let (next, s) := s.lookahead 0
    if next.symbol ∈ terminators ∨ next.symbol = .eof then
      return (items.reverse, s)
    let (item, s) ← e.expression power s
    let (goesOn, s) := s.accept separator
    if goesOn then
      e.separatedUntilFrom separator power terminators rounds (item :: items) s
    else
      return ((item :: items).reverse, s)

/-- Separated expressions up to one of several terminators, which is left. -/
def separatedUntil (e : Engine) (separator : Symbol) (power : BindingPower)
    (terminators : List Symbol) : Parse (List NodeId) :=
  e.separatedUntilFrom separator power terminators e.rounds []

/-- Juxtaposed expressions up to one of several terminators, which is left, behind the items found
before, which are in reverse. -/
def juxtaposedFrom (e : Engine) (power : BindingPower) (terminators : List Symbol) :
    Nat → List NodeId → Parse (List NodeId)
  | 0, _, _ => none
  | rounds + 1, items, s => do
    let (next, s) := s.lookahead 0
    if next.symbol ∈ terminators ∨ next.symbol = .eof then
      return (items.reverse, s)
    let (item, s) ← e.expression power s
    e.juxtaposedFrom power terminators rounds (item :: items) s

/-- Juxtaposed expressions up to one of several terminators, which is left. -/
def juxtaposed (e : Engine) (power : BindingPower) (terminators : List Symbol) :
    Parse (List NodeId) :=
  e.juxtaposedFrom power terminators e.rounds []

end Precedence.Engine
