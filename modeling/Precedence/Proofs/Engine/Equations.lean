import Precedence.Grammar.Parse
import Precedence.Proofs.Session.Coming

/-!
One turn of every loop, and one call of every construct, by the tokens that are still to come. The
definitions ask the session for its next token; here that question has been answered, so each
equation shows the cases that the next token decides.
-/
namespace Precedence

open Session

namespace Session

theorem synchronize_succ (recovery : RecoverySet) (rounds : Nat) (s : Session) :
    s.synchronize recovery (rounds + 1) =
      if recovery.contains s.coming.head.symbol then some (true, s.peeked)
      else if s.coming.head.symbol = .eof then some (false, s.peeked)
      else s.consume.2.synchronize recovery rounds := by
  rw [synchronize, lookahead_zero]
  simp only [consume_peeked]

end Session

namespace Engine

variable (e : Engine)

theorem skipSeparators_succ (separator : Symbol) (rounds : Nat) (s : Session) :
    skipSeparators separator (rounds + 1) s =
      if s.coming.head.symbol = separator then skipSeparators separator rounds s.consume.2
      else some s.peeked := by
  rw [skipSeparators, accept_eq]
  by_cases hNext : s.coming.head.symbol = separator
  · rw [if_pos hNext, if_pos hNext]
    rfl
  · rw [if_neg hNext, if_neg hNext]
    rfl

theorem separatedFrom_succ (separator terminator : Symbol) (power : BindingPower) (rounds : Nat)
    (items : List NodeId) (s : Session) :
    e.separatedFrom separator terminator power (rounds + 1) items s =
      if s.coming.head.symbol = terminator then some (items.reverse, s.consume.2)
      else if s.coming.head.symbol = .eof then
        some (items.reverse,
          (s.peeked.fault e.symbols (.unterminated terminator) s.coming.head.range).2)
      else (e.expression power s.peeked).bind fun r =>
        if r.2.coming.head.symbol = separator then
          e.separatedFrom separator terminator power rounds (r.1 :: items) r.2.consume.2
        else some ((r.1 :: items).reverse, (r.2.peeked.expect e.symbols terminator).2) := by
  rw [separatedFrom, accept_eq]
  by_cases hClosed : s.coming.head.symbol = terminator
  · rw [if_pos hClosed, if_pos hClosed]
    rfl
  · rw [if_neg hClosed, if_neg hClosed]
    simp only [Bool.false_eq_true, if_false, lookahead_zero, coming_peeked, peeked_peeked,
      accept_eq]
    split
    · rfl
    · congr 1
      funext r
      split <;> rfl

theorem separatedUntilFrom_succ (separator : Symbol) (power : BindingPower)
    (terminators : List Symbol) (rounds : Nat) (items : List NodeId) (s : Session) :
    e.separatedUntilFrom separator power terminators (rounds + 1) items s =
      if s.coming.head.symbol ∈ terminators ∨ s.coming.head.symbol = .eof then
        some (items.reverse, s.peeked)
      else (e.expression power s.peeked).bind fun r =>
        if r.2.coming.head.symbol = separator then
          e.separatedUntilFrom separator power terminators rounds (r.1 :: items) r.2.consume.2
        else some ((r.1 :: items).reverse, r.2.peeked) := by
  rw [separatedUntilFrom, lookahead_zero]
  simp only [accept_eq]
  split
  · rfl
  · congr 1
    funext r
    split <;> rfl

theorem juxtaposedFrom_succ (power : BindingPower) (terminators : List Symbol) (rounds : Nat)
    (items : List NodeId) (s : Session) :
    e.juxtaposedFrom power terminators (rounds + 1) items s =
      if s.coming.head.symbol ∈ terminators ∨ s.coming.head.symbol = .eof then
        some (items.reverse, s.peeked)
      else (e.expression power s.peeked).bind fun r =>
        e.juxtaposedFrom power terminators rounds (r.1 :: items) r.2 := by
  rw [juxtaposedFrom, lookahead_zero]
  rfl

theorem closeGroup_wrapped (closing : Symbol) (token : Token) (inner : NodeId) (s : Session) :
    e.closeGroup closing true token inner s =
      (s.expect e.symbols closing).2.alloc (.group inner)
        ((s.expect e.symbols closing).2.rangeFrom token.range) :=
  rfl

theorem tupleOrGroup_eq (closing separator : Symbol) (wrapped : Bool) (token : Token)
    (s : Session) :
    e.tupleOrGroup closing separator wrapped token s =
      if s.coming.head.symbol = closing then
        some (s.consume.2.alloc (.tuple []) (s.consume.2.rangeFrom token.range))
      else (e.expression .lowest s.peeked).bind fun r =>
        if r.2.coming.head.symbol = separator then
          (e.separated separator closing .lowest r.2.consume.2).bind fun items =>
            some (items.2.alloc (.tuple (r.1 :: items.1)) (items.2.rangeFrom token.range))
        else some (e.closeGroup closing wrapped token r.1 r.2.peeked) := by
  simp only [tupleOrGroup, accept_eq]
  split
  · rfl
  · simp only [Bool.false_eq_true, if_false]
    congr 1
    funext r
    split <;> rfl

theorem skipToBoundary_eq (separator terminator : Symbol) (s : Session) :
    e.skipToBoundary separator terminator s =
      (s.peeked.synchronize ((RecoverySet.empty.insert separator).insert terminator)
        e.rounds).bind fun r =>
          some (r.2.alloc (.invalid s.coming.head.symbol)
            (s.coming.head.range.merge r.2.previous.range)) := by
  simp only [skipToBoundary, lookahead_zero]
  rfl

/-- What is reported about the token behind a statement that no boundary follows. -/
def faultBoundary (separator terminator : Symbol) (failed : Bool) (s : Session) : Session :=
  if failed ∨ s.coming.head.symbol = .invalid then s.peeked
  else (s.peeked.fault e.symbols
    (.expectedBoundary separator terminator s.coming.head.symbol) s.coming.head.range).2

theorem afterStatement_eq (separator terminator : Symbol) (failed : Bool) (s : Session) :
    e.afterStatement separator terminator failed s =
      if s.coming.head.symbol = separator then some (none, s.consume.2)
      else if s.coming.head.symbol = terminator ∨ s.coming.head.symbol = .eof then
        some (none, s.peeked)
      else match e.recovery with
        | .none => some (none, e.faultBoundary separator terminator failed s)
        | .skipToBoundary =>
          (e.skipToBoundary separator terminator
            (e.faultBoundary separator terminator failed s)).bind fun r =>
              some (some r.1, r.2) := by
  simp only [afterStatement, accept_eq, faultBoundary]
  split
  · rfl
  · simp only [Bool.false_eq_true, if_false, lookahead_zero, coming_peeked, peeked_peeked]
    rfl

theorem statementsFrom_succ (separator : Option Symbol) (terminator : Symbol) (wrap : Bool)
    (rounds : Nat) (found : List NodeId) (s : Session) :
    e.statementsFrom separator terminator wrap (rounds + 1) found s =
      (e.skipBefore separator s).bind fun s =>
        if s.coming.head.symbol = terminator then some (found.reverse, s.consume.2)
        else if s.coming.head.symbol = .eof then
          some (found.reverse,
            (s.peeked.fault e.symbols (.unterminated terminator) s.coming.head.range).2)
        else (e.statement wrap s.peeked).bind fun r =>
          match separator with
          | none => e.statementsFrom none terminator wrap rounds (r.1 :: found) r.2
          | some boundary =>
            (e.afterStatement boundary terminator (s.peeked.errorCount < r.2.errorCount)
              r.2).bind fun skipped =>
                e.statementsFrom (some boundary) terminator wrap rounds
                  (skipped.1.toList ++ r.1 :: found) skipped.2 := by
  rw [statementsFrom]
  congr 1
  funext s
  rw [accept_eq]
  by_cases hClosed : s.coming.head.symbol = terminator
  · rw [if_pos hClosed, if_pos hClosed]
    rfl
  · rw [if_neg hClosed, if_neg hClosed]
    simp only [Bool.false_eq_true, if_false, lookahead_zero, coming_peeked, peeked_peeked]
    split
    · rfl
    · cases separator <;> rfl

end Engine

namespace Grammar

variable (g : Grammar) (e : Engine)

theorem continueExpression_succ (threshold : BindingPower) (rounds : Nat) (left : NodeId)
    (s : Session) :
    g.continueExpression e threshold (rounds + 1) left s =
      if g.power s.coming.head.symbol ≤ threshold then some (left, s.peeked)
      else match g.infixFor? s.coming.head.symbol with
        | none => some (left,
            (s.consume.2.fault e.symbols (.noInfix s.coming.head.symbol) s.coming.head.range).2)
        | some parselet =>
          (e.parseInfix parselet left s.coming.head s.consume.2).bind fun r =>
            g.continueExpression e threshold rounds r.1 r.2 := by
  rw [continueExpression, lookahead_zero]
  simp only [consume_peeked, consume_fst]
  rfl

theorem parseExpression_eq (threshold : BindingPower) (s : Session) :
    g.parseExpression e threshold s =
      (g.startExpression e s.coming.head s.consume.2).bind fun r =>
        g.continueExpression e threshold e.rounds r.1 r.2 := by
  unfold parseExpression
  rw [consume_eq]
  rfl

theorem parseStatement_eq (wrap : Bool) (s : Session) :
    g.parseStatement e wrap s =
      match g.statementFor? s.coming.head.symbol with
      | some parselet => parselet.parse e s.coming.head s.consume.2
      | none => (g.parseExpression e .lowest s.peeked).bind fun r =>
          if wrap then some (r.2.alloc (.statement r.1) (r.2.nodeRange r.1)) else some r := by
  simp only [parseStatement, lookahead_zero, consume_peeked, consume_fst]
  rfl

@[simp] theorem rounds_engine (g : Grammar) (rounds depth : Nat) :
    (g.engine rounds depth).rounds = rounds := by
  cases depth <;> rfl

@[simp] theorem symbols_engine (g : Grammar) (rounds depth : Nat) :
    (g.engine rounds depth).symbols = g.symbols := by
  cases depth <;> rfl

end Grammar

end Precedence
