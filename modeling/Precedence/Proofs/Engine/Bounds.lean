import Precedence.Proofs.Engine.Equations
import Precedence.Proofs.Grammar.Parselets

/-!
Bounds decide whether a parser has a result, and never which. What an engine parses is parsed alike
by every engine of the same grammar that may go deeper and whose loops may turn more often.
-/
namespace Precedence

open Session

/-- Whatever is a result of the first is a result of the second. -/
def Keeps {α : Type} (x y : Option α) : Prop := ∀ r, x = some r → y = some r

namespace Keeps

variable {α β : Type} {x y : Option α}

theorem refl (x : Option α) : Keeps x x := fun _ h => h

theorem none (y : Option α) : Keeps .none y := by
  intro r h
  cases h

theorem bind {f f' : α → Option β} (h : Keeps x y) (hNext : ∀ a, Keeps (f a) (f' a)) :
    Keeps (x.bind f) (y.bind f') := by
  intro r hResult
  obtain ⟨a, hFirst, hLast⟩ := Option.bind_eq_some_iff.mp hResult
  rw [h a hFirst, Option.bind_some]
  exact hNext a r hLast

theorem ite {c : Prop} [Decidable c] {x' y' : Option α} (h : Keeps x y) (h' : Keeps x' y') :
    Keeps (if c then x else x') (if c then y else y') := by
  split
  · exact h
  · exact h'

end Keeps

/-- The loop of a session that skips tokens has one result for all bounds. -/
theorem Session.keeps_synchronize (recovery : RecoverySet) {rounds rounds' : Nat}
    (hLe : rounds ≤ rounds') (s : Session) :
    Keeps (s.synchronize recovery rounds) (s.synchronize recovery rounds') := by
  induction rounds generalizing s rounds' with
  | zero => exact .none _
  | succ rounds ih =>
      obtain ⟨later, rfl⟩ := Nat.exists_eq_add_of_lt hLe
      rw [synchronize_succ, synchronize_succ]
      exact .ite (.refl _) (.ite (.refl _) (ih (Nat.le_add_right _ _) _))

namespace Engine

/-- What the first engine parses is parsed alike by the second, whose bounds are as high. -/
structure IsWithin (e e' : Engine) : Prop where
  symbols : e'.symbols = e.symbols
  recovery : e'.recovery = e.recovery
  rounds : e.rounds ≤ e'.rounds
  expression (threshold : BindingPower) (s : Session) :
    Keeps (e.expression threshold s) (e'.expression threshold s)
  statement (wrap : Bool) (s : Session) : Keeps (e.statement wrap s) (e'.statement wrap s)

theorem keeps_skipSeparators (separator : Symbol) {rounds rounds' : Nat} (hLe : rounds ≤ rounds')
    (s : Session) :
    Keeps (skipSeparators separator rounds s) (skipSeparators separator rounds' s) := by
  induction rounds generalizing s rounds' with
  | zero => exact .none _
  | succ rounds ih =>
      obtain ⟨later, rfl⟩ := Nat.exists_eq_add_of_lt hLe
      rw [skipSeparators_succ, skipSeparators_succ]
      exact .ite (ih (Nat.le_add_right _ _) _) (.refl _)

namespace IsWithin

variable {e e' : Engine} (h : e.IsWithin e')

include h

/-! ### Sequences -/

theorem separatedFrom (separator terminator : Symbol) (power : BindingPower)
    {rounds rounds' : Nat} (hLe : rounds ≤ rounds') (items : List NodeId) (s : Session) :
    Keeps (e.separatedFrom separator terminator power rounds items s)
      (e'.separatedFrom separator terminator power rounds' items s) := by
  induction rounds generalizing items s rounds' with
  | zero => exact .none _
  | succ rounds ih =>
      obtain ⟨later, rfl⟩ := Nat.exists_eq_add_of_lt hLe
      rw [separatedFrom_succ, separatedFrom_succ, h.symbols]
      refine .ite (.refl _) (.ite (.refl _) ((h.expression power _).bind fun r => ?_))
      exact .ite (ih (Nat.le_add_right _ _) _ _) (.refl _)

theorem separatedUntilFrom (separator : Symbol) (power : BindingPower) (terminators : List Symbol)
    {rounds rounds' : Nat} (hLe : rounds ≤ rounds') (items : List NodeId) (s : Session) :
    Keeps (e.separatedUntilFrom separator power terminators rounds items s)
      (e'.separatedUntilFrom separator power terminators rounds' items s) := by
  induction rounds generalizing items s rounds' with
  | zero => exact .none _
  | succ rounds ih =>
      obtain ⟨later, rfl⟩ := Nat.exists_eq_add_of_lt hLe
      rw [separatedUntilFrom_succ, separatedUntilFrom_succ]
      refine .ite (.refl _) ((h.expression power _).bind fun r => ?_)
      exact .ite (ih (Nat.le_add_right _ _) _ _) (.refl _)

theorem juxtaposedFrom (power : BindingPower) (terminators : List Symbol)
    {rounds rounds' : Nat} (hLe : rounds ≤ rounds') (items : List NodeId) (s : Session) :
    Keeps (e.juxtaposedFrom power terminators rounds items s)
      (e'.juxtaposedFrom power terminators rounds' items s) := by
  induction rounds generalizing items s rounds' with
  | zero => exact .none _
  | succ rounds ih =>
      obtain ⟨later, rfl⟩ := Nat.exists_eq_add_of_lt hLe
      rw [juxtaposedFrom_succ, juxtaposedFrom_succ]
      exact .ite (.refl _) ((h.expression power _).bind fun r => ih (Nat.le_add_right _ _) _ _)

theorem separated (separator terminator : Symbol) (power : BindingPower) (s : Session) :
    Keeps (e.separated separator terminator power s) (e'.separated separator terminator power s) :=
  h.separatedFrom separator terminator power h.rounds [] s

/-! ### Blocks -/

theorem skipBefore (separator : Option Symbol) (s : Session) :
    Keeps (e.skipBefore separator s) (e'.skipBefore separator s) := by
  cases separator with
  | none => exact .refl _
  | some separator => exact keeps_skipSeparators separator h.rounds s

theorem afterStatement (separator terminator : Symbol) (failed : Bool) (s : Session) :
    Keeps (e.afterStatement separator terminator failed s)
      (e'.afterStatement separator terminator failed s) := by
  have hFault : e'.faultBoundary separator terminator failed s =
      e.faultBoundary separator terminator failed s := by
    unfold faultBoundary
    rw [h.symbols]
  rw [afterStatement_eq, afterStatement_eq, h.recovery, hFault]
  refine .ite (.refl _) (.ite (.refl _) ?_)
  cases e.recovery with
  | none => exact .refl _
  | skipToBoundary =>
      refine Keeps.bind ?_ fun r => .refl _
      rw [skipToBoundary_eq, skipToBoundary_eq]
      exact (keeps_synchronize _ h.rounds _).bind fun r => .refl _

theorem statementsFrom (separator : Option Symbol) (terminator : Symbol) (wrap : Bool)
    {rounds rounds' : Nat} (hLe : rounds ≤ rounds') (found : List NodeId) (s : Session) :
    Keeps (e.statementsFrom separator terminator wrap rounds found s)
      (e'.statementsFrom separator terminator wrap rounds' found s) := by
  induction rounds generalizing found s rounds' with
  | zero => exact .none _
  | succ rounds ih =>
      obtain ⟨later, rfl⟩ := Nat.exists_eq_add_of_lt hLe
      rw [statementsFrom_succ, statementsFrom_succ, h.symbols]
      refine (h.skipBefore separator s).bind fun s => .ite (.refl _) (.ite (.refl _) ?_)
      refine (h.statement wrap _).bind fun r => ?_
      cases separator with
      | none => exact ih (Nat.le_add_right _ _) _ _
      | some boundary =>
          refine (h.afterStatement boundary terminator _ _).bind fun skipped => ?_
          exact ih (Nat.le_add_right _ _) _ _

theorem block (opening : SourceRange) (separator : Option Symbol) (terminator : Symbol)
    (wrap : Bool) (s : Session) :
    Keeps (e.block opening separator terminator wrap s)
      (e'.block opening separator terminator wrap s) :=
  (h.statementsFrom separator terminator wrap h.rounds [] s).bind fun _ => .refl _

/-! ### Constructs -/

theorem group (closing : Symbol) (separator : Option Symbol) (wrapped : Bool) (token : Token)
    (s : Session) :
    Keeps (e.group closing separator wrapped token s)
      (e'.group closing separator wrapped token s) := by
  have hClose (inner : NodeId) (t : Session) : e'.closeGroup closing wrapped token inner t =
      e.closeGroup closing wrapped token inner t := by
    unfold closeGroup
    rw [h.symbols]
  cases separator with
  | none =>
      refine (h.expression .lowest s).bind fun r => ?_
      simp only [hClose]
      exact .refl _
  | some separator =>
      rw [Engine.group, Engine.group, tupleOrGroup_eq, tupleOrGroup_eq]
      refine .ite (.refl _) ((h.expression .lowest _).bind fun r => .ite ?_ ?_)
      · exact (h.separated separator closing .lowest _).bind fun _ => .refl _
      · rw [hClose]
        exact .refl _

theorem parsePrefix {parselet : PrefixParselet} (hBuiltIn : parselet.isBuiltIn = true)
    (token : Token) (s : Session) :
    Keeps (e.parsePrefix parselet token s) (e'.parsePrefix parselet token s) := by
  cases parselet with
  | name | boolean => exact .refl _
  | number separators =>
      simp only [Engine.parsePrefix, number, h.symbols]
      exact .refl _
  | string escape =>
      simp only [Engine.parsePrefix, string, attachFaults, h.symbols]
      exact .refl _
  | operator power => exact (h.expression power s).bind fun _ => .refl _
  | group closing separator wrapped => exact h.group closing separator wrapped token s
  | block separator terminator wrap => exact h.block token.range separator terminator wrap s
  | custom parse => cases hBuiltIn

theorem parseInfix {parselet : InfixParselet} (hBuiltIn : parselet.form.isBuiltIn = true)
    (left : NodeId) (token : Token) (s : Session) :
    Keeps (e.parseInfix parselet left token s) (e'.parseInfix parselet left token s) := by
  obtain ⟨power, form⟩ := parselet
  cases form with
  | postfixed => exact .refl _
  | binary associativity =>
      exact (h.expression (associativity.threshold power) s).bind fun _ => .refl _
  | ternary second =>
      refine (h.expression .lowest s).bind fun r => ?_
      rw [h.symbols]
      exact (h.expression power.below _).bind fun _ => .refl _
  | call closing separator =>
      exact (h.separated separator closing .lowest s).bind fun _ => .refl _
  | lambda =>
      refine (h.expression power.below s).bind fun r => ?_
      rw [h.symbols]
      exact .refl _
  | custom parse => cases hBuiltIn

end IsWithin

end Engine

namespace Grammar

variable {g : Grammar} {e e' : Engine}

theorem keeps_startExpression (hBuiltIn : g.hasBuiltInParselets = true) (h : e.IsWithin e')
    (token : Token) (s : Session) :
    Keeps (g.startExpression e token s) (g.startExpression e' token s) := by
  unfold startExpression
  rw [h.symbols]
  refine .ite (.refl _) (.ite (.refl _) ?_)
  split
  · next parselet hParselet =>
    exact h.parsePrefix (isBuiltIn_of_prefixFor? hBuiltIn hParselet) token s
  · exact .refl _

theorem keeps_continueExpression (hBuiltIn : g.hasBuiltInParselets = true) (h : e.IsWithin e')
    (threshold : BindingPower) {rounds rounds' : Nat} (hLe : rounds ≤ rounds') (left : NodeId)
    (s : Session) :
    Keeps (g.continueExpression e threshold rounds left s)
      (g.continueExpression e' threshold rounds' left s) := by
  induction rounds generalizing left s rounds' with
  | zero => exact .none _
  | succ rounds ih =>
      obtain ⟨later, rfl⟩ := Nat.exists_eq_add_of_lt hLe
      rw [continueExpression_succ, continueExpression_succ, h.symbols]
      refine .ite (.refl _) ?_
      split
      · exact .refl _
      · next parselet hParselet =>
        refine (h.parseInfix (isBuiltIn_of_infixFor? hBuiltIn hParselet) _ _ _).bind fun r => ?_
        exact ih (Nat.le_add_right _ _) _ _

theorem keeps_parseExpression (hBuiltIn : g.hasBuiltInParselets = true) (h : e.IsWithin e')
    (threshold : BindingPower) (s : Session) :
    Keeps (g.parseExpression e threshold s) (g.parseExpression e' threshold s) := by
  rw [parseExpression_eq, parseExpression_eq]
  exact (keeps_startExpression hBuiltIn h _ _).bind fun r =>
    keeps_continueExpression hBuiltIn h threshold h.rounds _ _

theorem keeps_parseStatement (hBuiltIn : g.hasBuiltInParselets = true) (h : e.IsWithin e')
    (wrap : Bool) (s : Session) :
    Keeps (g.parseStatement e wrap s) (g.parseStatement e' wrap s) := by
  rw [parseStatement_eq, parseStatement_eq, statementFor?_eq_none hBuiltIn]
  exact (keeps_parseExpression hBuiltIn h .lowest _).bind fun _ => .refl _

/-- Engines of a grammar differ by their bounds alone. -/
theorem isWithin_engine (hBuiltIn : g.hasBuiltInParselets = true)
    {rounds rounds' depth depth' : Nat} (hRounds : rounds ≤ rounds') (hDepth : depth ≤ depth') :
    (g.engine rounds depth).IsWithin (g.engine rounds' depth') := by
  induction depth generalizing depth' with
  | zero =>
      refine ⟨by simp [engine], ?_, by simpa using hRounds, fun _ _ => .none _, fun _ _ => .none _⟩
      cases depth' <;> rfl
  | succ depth ih =>
      obtain ⟨later, rfl⟩ := Nat.exists_eq_add_of_lt hDepth
      have hNested := ih (Nat.le_add_right depth later)
      exact ⟨rfl, rfl, hRounds, keeps_parseExpression hBuiltIn hNested,
        keeps_parseStatement hBuiltIn hNested⟩

theorem keeps_parseRoot (h : e.IsWithin e') (s : Session) :
    Keeps (g.parseRoot e s) (g.parseRoot e' s) := by
  unfold parseRoot
  exact .ite (h.expression .lowest s) (.ite (h.block _ _ _ _ _) (h.expression .lowest _))

end Grammar

end Precedence
