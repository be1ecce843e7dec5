import Precedence.Parse.Engine
import Precedence.Parse.Recovery

/-!
Blocks: statements up to a terminator. With a separator, any number of separators may stand before,
between and behind the statements; without one, each statement starts where the last one ended. A
block always ends at the end of the input, where a missing terminator is reported.

Where a statement is not followed by a boundary, the rest up to the boundary is skipped under the
skipping policy, and one invalid node stands for it. The missing boundary is reported only if
nothing was reported about the statement itself.
-/
namespace Precedence.Engine

/-- The session after all separators that come next. -/
def skipSeparators (separator : Symbol) : Nat → Session → Option Session
  | 0, _ => none
  | rounds + 1, s =>
    let (found, s) := s.accept separator
    if found then skipSeparators separator rounds s else some s

/-- The separators before a statement, of which there are none in a block without a separator. -/
def skipBefore (e : Engine) (separator : Option Symbol) (s : Session) : Option Session :=
  match separator with
  | none => some s
  | some separator => skipSeparators separator e.rounds s

/-- The node for the tokens up to the next boundary, which are skipped. -/
def skipToBoundary (e : Engine) (separator terminator : Symbol) : Parse NodeId := fun s => do
  let (first, s) := s.lookahead 0
  let boundary := (RecoverySet.empty.insert separator).insert terminator
  let (_, s) ← s.synchronize boundary e.rounds
  return s.alloc (.invalid first.symbol) (first.range.merge s.previous.range)

/-- What follows a statement in a block with a separator: a boundary, or tokens that are skipped or
not, with a node for those that are. The flag tells whether something was reported about the
statement. -/
def afterStatement (e : Engine) (separator terminator : Symbol) (failed : Bool) :
    Parse (Option NodeId) := fun s => do
  let (separated, s) := s.accept separator
  if separated then
    return (none, s)
  let (next, s) := s.lookahead 0
  if next.symbol = terminator ∨ next.symbol = .eof then
    return (none, s)
  let s :=
    if failed ∨ next.symbol = .invalid then s
    else
      (s.fault e.symbols (.expectedBoundary separator terminator next.symbol) next.range).2
  match e.recovery with
  | .none => return (none, s)
  | .skipToBoundary =>
    let (node, s) ← e.skipToBoundary separator terminator s
    return (some node, s)

/-- The statements of a block, its terminator consumed, behind those found before, which are in
reverse. -/
def statementsFrom (e : Engine) (separator : Option Symbol) (terminator : Symbol) (wrap : Bool) :
    Nat → List NodeId → Parse (List NodeId)
  | 0, _, _ => none
  | rounds + 1, found, s => do
    let s ← e.skipBefore separator s
    let (closed, s) := s.accept terminator
    if closed then
      return (found.reverse, s)
    let (next, s) := s.lookahead 0
    if next.symbol = .eof then
      return (found.reverse, (s.fault e.symbols (.unterminated terminator) next.range).2)
    let before := s.errorCount
    let (statement, s) ← e.statement wrap s
    match separator with
    | none => e.statementsFrom separator terminator wrap rounds (statement :: found) s
    | some boundary =>
      let (skipped, s) ← e.afterStatement boundary terminator (before < s.errorCount) s
      e.statementsFrom separator terminator wrap rounds
        (skipped.toList ++ statement :: found) s

/-- The node of a block whose opening has been consumed. -/
def block (e : Engine) (opening : SourceRange) (separator : Option Symbol) (terminator : Symbol)
    (wrap : Bool) : Parse NodeId := fun s => do
  let (children, s) ← e.statementsFrom separator terminator wrap e.rounds [] s
  return s.alloc (.block children separator terminator) (s.rangeFrom opening)

end Precedence.Engine
