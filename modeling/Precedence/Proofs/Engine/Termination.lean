import Precedence.Grammar.Sample
import Precedence.Proofs.Engine.Bounds
import Precedence.Proofs.Engine.Run
import Precedence.Proofs.Lexer.Tokens

/-!
Parsing ends. What bounds it is the number of tokens before the end: whatever is nested starts
behind a token that has been consumed, and so does every turn of a loop but the last. At the end of
the input nothing can be nested and no loop goes on, although tokens can still be consumed there.
-/
namespace Precedence

open Session

namespace Session

/-- From a number of tokens on, nothing but the end is found. -/
def EndsAfter (s : Session) (n : Nat) : Prop := ∀ k, n ≤ k → (s.coming.get k).symbol = .eof

variable {s t : Session} {m n : Nat}

theorem EndsAfter.mono (h : s.EndsAfter m) (hLe : m ≤ n) : s.EndsAfter n :=
  fun k hk => h k (Nat.le_trans hLe hk)

theorem EndsAfter.of_continues (h : s.EndsAfter n) (hContinues : s.Continues t) :
    t.EndsAfter n := by
  intro k hk
  obtain ⟨consumed, hComing⟩ := hContinues.coming
  rw [hComing, Stream'.get_drop]
  exact h _ (by omega)

theorem EndsAfter.peeked (h : s.EndsAfter n) : s.peeked.EndsAfter n :=
  h.of_continues s.continues_peeked

theorem EndsAfter.consume (h : s.EndsAfter n) : s.consume.2.EndsAfter (n - 1) := by
  intro k hk
  rw [coming_consume]
  exact h (k + 1) (by omega)

theorem EndsAfter.pos (h : s.EndsAfter n) (hHead : s.coming.head.symbol ≠ .eof) : 0 < n := by
  apply Nat.pos_of_ne_zero
  rintro rfl
  exact hHead (h 0 (Nat.le_refl 0))

/-- Behind the tokens that a session holds there is only the end. -/
theorem endsAfter_length (hEnding : s.ending.symbol = .eof) :
    s.EndsAfter (s.ahead.length + s.upcoming.length) := by
  intro k hk
  obtain ⟨later, rfl⟩ := Nat.exists_eq_add_of_le hk
  have hLength : s.ahead.length + s.upcoming.length =
      (s.ahead ++ s.upcoming.map (·.token)).length := by simp
  rw [coming, ← Stream'.append_append_stream, hLength, Stream'.get_append_right]
  exact hEnding

/-! ### The loops that only ask for tokens -/

theorem synchronize_isSome (recovery : RecoverySet) {rounds : Nat} (hEnds : s.EndsAfter n)
    (hRounds : n < rounds) : (s.synchronize recovery rounds).isSome := by
  induction rounds generalizing s n with
  | zero => cases hRounds
  | succ rounds ih =>
      rw [synchronize_succ]
      split
      · rfl
      · split
        · rfl
        · next hHead =>
          have hPos := hEnds.pos hHead
          exact ih hEnds.consume (by omega)

end Session

theorem Engine.skipSeparators_isSome {separator : Symbol} (hSeparator : separator ≠ .eof)
    {s : Session} {n rounds : Nat} (hEnds : s.EndsAfter n) (hRounds : n < rounds) :
    (skipSeparators separator rounds s).isSome := by
  induction rounds generalizing s n with
  | zero => cases hRounds
  | succ rounds ih =>
      rw [skipSeparators_succ]
      split
      · next hHead =>
        have hPos := hEnds.pos (hHead ▸ hSeparator)
        exact ih hEnds.consume (by omega)
      · rfl

/-- Whether the parselet is not for a block that the end of the input separates. -/
def PrefixParselet.isOpen : PrefixParselet → Bool
  | .block separator _ _ => separator != some .eof
  | _ => true

/-- The parsers of an engine return wherever no more than a number of tokens are left, and its loops
may turn more often. -/
structure Engine.IsTotal (e : Engine) (g : Grammar) (n : Nat) : Prop extends e.RunsBy g where
  bound : n < e.rounds
  returns {s : Session} (threshold : BindingPower) :
    s.EndsAfter n → (e.expression threshold s).isSome
  returnsStatement {s : Session} (wrap : Bool) : s.EndsAfter n → (e.statement wrap s).isSome

namespace Engine.IsTotal

variable {e : Engine} {g : Grammar} {m n : Nat} (he : e.IsTotal g n) {s : Session}

include he

/-- An expression is parsed, and a token less is left, unless none was. -/
theorem exists_expression (threshold : BindingPower) (hEnds : s.EndsAfter m) (hLe : m ≤ n) :
    ∃ id t, e.expression threshold s = some (id, t) ∧ t.EndsAfter (m - 1) := by
  obtain ⟨⟨id, t⟩, h⟩ := Option.isSome_iff_exists.mp (he.returns threshold (hEnds.mono hLe))
  exact ⟨id, t, h, hEnds.consume.of_continues (Grammar.Run.continues (he.toRunsBy.expression h))⟩

theorem exists_statement (wrap : Bool) (hEnds : s.EndsAfter m) (hLe : m ≤ n) :
    ∃ id t, e.statement wrap s = some (id, t) ∧ t.EndsAfter (m - 1) := by
  obtain ⟨⟨id, t⟩, h⟩ := Option.isSome_iff_exists.mp (he.returnsStatement wrap (hEnds.mono hLe))
  exact ⟨id, t, h, hEnds.consume.of_continues (Grammar.Run.continues (he.toRunsBy.statement h))⟩

/-! ### Sequences -/

theorem separatedFrom_isSome {separator terminator : Symbol} {power : BindingPower}
    {rounds : Nat} {items : List NodeId} (hEnds : s.EndsAfter m) (hLe : m ≤ n)
    (hRounds : m < rounds) :
    (e.separatedFrom separator terminator power rounds items s).isSome := by
  induction rounds generalizing s m items with
  | zero => cases hRounds
  | succ rounds ih =>
      rw [Engine.separatedFrom_succ]
      split
      · rfl
      · split
        · rfl
        · next hHead =>
          have hPos := hEnds.pos hHead
          obtain ⟨id, t, hItem, hRest⟩ := he.exists_expression power hEnds.peeked hLe
          rw [hItem, Option.bind_some]
          split
          · exact ih (hRest.of_continues t.continues_consume) (by omega) (by omega)
          · rfl

theorem separatedUntilFrom_isSome {separator : Symbol} {power : BindingPower}
    {terminators : List Symbol} {rounds : Nat} {items : List NodeId} (hEnds : s.EndsAfter m)
    (hLe : m ≤ n) (hRounds : m < rounds) :
    (e.separatedUntilFrom separator power terminators rounds items s).isSome := by
  induction rounds generalizing s m items with
  | zero => cases hRounds
  | succ rounds ih =>
      rw [Engine.separatedUntilFrom_succ]
      split
      · rfl
      · next hHead =>
        have hPos := hEnds.pos (not_or.mp hHead).2
        obtain ⟨id, t, hItem, hRest⟩ := he.exists_expression power hEnds.peeked hLe
        rw [hItem, Option.bind_some]
        split
        · exact ih (hRest.of_continues t.continues_consume) (by omega) (by omega)
        · rfl

theorem juxtaposedFrom_isSome {power : BindingPower} {terminators : List Symbol} {rounds : Nat}
    {items : List NodeId} (hEnds : s.EndsAfter m) (hLe : m ≤ n) (hRounds : m < rounds) :
    (e.juxtaposedFrom power terminators rounds items s).isSome := by
  induction rounds generalizing s m items with
  | zero => cases hRounds
  | succ rounds ih =>
      rw [Engine.juxtaposedFrom_succ]
      split
      · rfl
      · next hHead =>
        have hPos := hEnds.pos (not_or.mp hHead).2
        obtain ⟨id, t, hItem, hRest⟩ := he.exists_expression power hEnds.peeked hLe
        rw [hItem, Option.bind_some]
        exact ih hRest (by omega) (by omega)

theorem exists_separated (separator terminator : Symbol) (power : BindingPower)
    (hEnds : s.EndsAfter n) :
    ∃ items t, e.separated separator terminator power s = some (items, t) := by
  have hSome : (e.separated separator terminator power s).isSome :=
    he.separatedFrom_isSome hEnds (Nat.le_refl n) he.bound
  obtain ⟨⟨items, t⟩, h⟩ := Option.isSome_iff_exists.mp hSome
  exact ⟨items, t, h⟩

/-! ### Blocks -/

theorem afterStatement_isSome (separator terminator : Symbol) (failed : Bool)
    (hEnds : s.EndsAfter n) :
    (e.afterStatement separator terminator failed s).isSome := by
  rw [Engine.afterStatement_eq]
  split
  · rfl
  · split
    · rfl
    · split
      · rfl
      · have hFault : (e.faultBoundary separator terminator failed s).EndsAfter n :=
          hEnds.of_continues (Grammar.Run.continues (run_faultBoundary he.toRunsBy _ _ _ s))
        obtain ⟨⟨found, t⟩, hSkipped⟩ := Option.isSome_iff_exists.mp (synchronize_isSome
          ((RecoverySet.empty.insert separator).insert terminator) hFault.peeked he.bound)
        rw [Engine.skipToBoundary_eq, hSkipped]
        rfl

theorem skipBefore_isSome {separator : Option Symbol} (hSeparator : separator ≠ some .eof)
    (hEnds : s.EndsAfter n) : (e.skipBefore separator s).isSome := by
  cases separator with
  | none => rfl
  | some separator =>
      exact Engine.skipSeparators_isSome (fun hEnd => hSeparator (congrArg some hEnd)) hEnds
        he.bound

theorem statementsFrom_isSome {separator : Option Symbol} (hSeparator : separator ≠ some .eof)
    {terminator : Symbol} {wrap : Bool} {rounds : Nat} {found : List NodeId}
    (hEnds : s.EndsAfter m) (hLe : m ≤ n) (hRounds : m < rounds) :
    (e.statementsFrom separator terminator wrap rounds found s).isSome := by
  induction rounds generalizing s m found with
  | zero => cases hRounds
  | succ rounds ih =>
      rw [Engine.statementsFrom_succ]
      obtain ⟨u, hBefore⟩ :=
        Option.isSome_iff_exists.mp (he.skipBefore_isSome hSeparator (hEnds.mono hLe))
      rw [hBefore, Option.bind_some]
      have hStart : u.EndsAfter m :=
        hEnds.of_continues (Moves.continues (moves_skipBefore hBefore))
      split
      · rfl
      · split
        · rfl
        · next hHead =>
          have hPos := hStart.pos hHead
          obtain ⟨id, t, hStatement, hRest⟩ := he.exists_statement wrap hStart.peeked hLe
          rw [hStatement, Option.bind_some]
          cases separator with
          | none => exact ih hRest (by omega) (by omega)
          | some boundary =>
              dsimp only
              obtain ⟨⟨skipped, v⟩, hAfter⟩ := Option.isSome_iff_exists.mp
                (he.afterStatement_isSome boundary terminator
                  (u.peeked.errorCount < t.errorCount) (hRest.mono (by omega)))
              rw [hAfter, Option.bind_some]
              have hRun := run_afterStatement he.toRunsBy hasErrors_of_errorCount_lt hAfter
              exact ih (hRest.of_continues (Grammar.Run.continues hRun)) (by omega) (by omega)

theorem block_isSome {opening : SourceRange} {separator : Option Symbol}
    (hSeparator : separator ≠ some .eof) {terminator : Symbol} {wrap : Bool}
    (hEnds : s.EndsAfter n) : (e.block opening separator terminator wrap s).isSome := by
  have hSome : (e.statementsFrom separator terminator wrap e.rounds [] s).isSome :=
    he.statementsFrom_isSome hSeparator hEnds (Nat.le_refl n) he.bound
  obtain ⟨⟨children, t⟩, hChildren⟩ := Option.isSome_iff_exists.mp hSome
  simp [Engine.block, hChildren]

/-! ### Constructs -/

theorem group_isSome {closing : Symbol} {separator : Option Symbol} {wrapped : Bool}
    {token : Token} (hEnds : s.EndsAfter n) :
    (e.group closing separator wrapped token s).isSome := by
  cases separator with
  | none =>
      obtain ⟨inner, t, hInner, -⟩ := he.exists_expression .lowest hEnds (Nat.le_refl n)
      simp [Engine.group, Engine.enclosed, hInner]
  | some separator =>
      rw [Engine.group, Engine.tupleOrGroup_eq]
      split
      · rfl
      · obtain ⟨inner, t, hInner, hRest⟩ :=
          he.exists_expression .lowest hEnds.peeked (Nat.le_refl n)
        rw [hInner, Option.bind_some]
        split
        · have hLater := (hRest.mono (Nat.sub_le n 1)).of_continues t.continues_consume
          obtain ⟨items, u, hItems⟩ := he.exists_separated separator closing .lowest hLater
          rw [hItems]
          rfl
        · rfl

theorem parsePrefix_isSome {parselet : PrefixParselet} (hBuiltIn : parselet.isBuiltIn = true)
    (hOpen : parselet.isOpen = true) {token : Token} (hEnds : s.EndsAfter n) :
    (e.parsePrefix parselet token s).isSome := by
  cases parselet with
  | name | number separators | boolean | string escape => rfl
  | operator power =>
      obtain ⟨operand, t, hOperand, -⟩ := he.exists_expression power hEnds (Nat.le_refl n)
      simp [Engine.parsePrefix, Engine.prefixOperator, hOperand]
  | group closing separator wrapped => exact he.group_isSome hEnds
  | block separator terminator wrap =>
      have hSeparator : separator ≠ some .eof := by simpa [PrefixParselet.isOpen] using hOpen
      exact he.block_isSome hSeparator hEnds
  | custom parse => cases hBuiltIn

theorem parseInfix_isSome {parselet : InfixParselet} (hBuiltIn : parselet.form.isBuiltIn = true)
    {left : NodeId} {token : Token} (hEnds : s.EndsAfter n) :
    (e.parseInfix parselet left token s).isSome := by
  obtain ⟨power, form⟩ := parselet
  cases form with
  | postfixed => rfl
  | binary associativity =>
      obtain ⟨right, t, hRight, -⟩ :=
        he.exists_expression (associativity.threshold power) hEnds (Nat.le_refl n)
      simp [Engine.parseInfix, Engine.binaryOperator, hRight]
  | ternary second =>
      obtain ⟨thenBranch, t, hThen, hRest⟩ := he.exists_expression .lowest hEnds (Nat.le_refl n)
      have hRun := Grammar.run_expect g t second
      have hExpected : (t.expect g.symbols second).2.EndsAfter n :=
        (hRest.mono (Nat.sub_le n 1)).of_continues (Grammar.Run.continues hRun)
      obtain ⟨elseBranch, u, hElse, -⟩ := he.exists_expression power.below hExpected (Nat.le_refl n)
      simp [Engine.parseInfix, Engine.ternary, he.symbols, hThen, hElse]
  | call closing separator =>
      obtain ⟨args, t, hArgs⟩ := he.exists_separated separator closing .lowest hEnds
      simp [Engine.parseInfix, Engine.call, hArgs]
  | lambda =>
      obtain ⟨body, t, hBody, -⟩ := he.exists_expression power.below hEnds (Nat.le_refl n)
      simp only [Engine.parseInfix, Engine.lambda, hBody, Option.bind_eq_bind, Option.bind_some]
      split <;> rfl
  | custom parse => cases hBuiltIn

end Engine.IsTotal

namespace Grammar

variable {g : Grammar}

/-- No block of a grammar is separated by the end of the input. -/
def hasOpenBlocks (g : Grammar) : Bool := g.prefixes.all (·.2.isOpen)

section

variable (hBuiltIn : g.hasBuiltInParselets = true) (hEnd : g.infixFor? .eof = none)
  (hBlocks : g.hasOpenBlocks = true) {e : Engine} {s : Session} {n : Nat}

include hBuiltIn hEnd hBlocks

omit hEnd in
theorem startExpression_isSome {token : Token} (he : token.symbol ≠ .eof → e.IsTotal g n)
    (hEnds : s.EndsAfter n) : (g.startExpression e token s).isSome := by
  unfold startExpression
  split
  · rfl
  · next hToken =>
    split
    · rfl
    · split
      · next parselet hParselet =>
        exact (he hToken).parsePrefix_isSome (isBuiltIn_of_prefixFor? hBuiltIn hParselet)
          (List.all_eq_true.mp hBlocks _ (mem_of_prefixFor? hParselet)) hEnds
      · rfl

omit hBlocks in
/-- The loop over operators turns at most once for each token that is left, and once more. -/
theorem continueExpression_isSome (he : ∀ m < n, e.IsTotal g m) {threshold : BindingPower}
    {rounds : Nat} {left : NodeId} (hEnds : s.EndsAfter n) (hRounds : n < rounds) :
    (g.continueExpression e threshold rounds left s).isSome := by
  induction rounds generalizing s n left with
  | zero => cases hRounds
  | succ rounds ih =>
      rw [continueExpression_succ]
      split
      · rfl
      · next hAbove =>
        split
        · rfl
        · next parselet hParselet =>
          -- the end has no infix parselet, so an operator is one of the tokens that are left
          have hPos : 0 < n := by
            apply hEnds.pos
            intro hHead
            rw [hHead, hEnd] at hParselet
            cases hParselet
          have hOne : (e.parseInfix parselet left s.coming.head s.consume.2).isSome :=
            (he (n - 1) (by omega)).parseInfix_isSome
              (isBuiltIn_of_infixFor? hBuiltIn hParselet) hEnds.consume
          obtain ⟨⟨operand, t⟩, hOperand⟩ := Option.isSome_iff_exists.mp hOne
          rw [hOperand, Option.bind_some]
          have hRun := Engine.run_parseInfix (he (n - 1) (by omega)).toRunsBy
            (isBuiltIn_of_infixFor? hBuiltIn hParselet) hOperand
          exact ih (fun m hm => he m (by omega)) (hEnds.consume.of_continues (Run.continues hRun))
            (by omega)

/-- Whatever is nested in an expression starts behind its first token. -/
theorem parseExpression_isSome (hRuns : e.RunsBy g) (he : ∀ m < n, e.IsTotal g m)
    (hRounds : n < e.rounds) {threshold : BindingPower} (hEnds : s.EndsAfter n) :
    (g.parseExpression e threshold s).isSome := by
  have hTotal (hHead : s.coming.head.symbol ≠ .eof) : e.IsTotal g (n - 1) := by
    have hPos := hEnds.pos hHead
    exact he (n - 1) (by omega)
  obtain ⟨⟨left, t⟩, hStart⟩ := Option.isSome_iff_exists.mp
    (startExpression_isSome hBuiltIn hBlocks hTotal hEnds.consume)
  rw [parseExpression_eq, hStart, Option.bind_some]
  rw [← s.previous_consume] at hStart
  have hRun := run_startExpression hBuiltIn hRuns hStart
  have hRest := hEnds.consume.of_continues (Run.continues hRun)
  exact continueExpression_isSome hBuiltIn hEnd (fun m hm => he m (by omega)) hRest (by omega)

theorem parseStatement_isSome (hRuns : e.RunsBy g) (he : ∀ m < n, e.IsTotal g m)
    (hRounds : n < e.rounds) {wrap : Bool} (hEnds : s.EndsAfter n) :
    (g.parseStatement e wrap s).isSome := by
  rw [parseStatement_eq, statementFor?_eq_none hBuiltIn]
  have hSome : (g.parseExpression e .lowest s.peeked).isSome :=
    parseExpression_isSome hBuiltIn hEnd hBlocks hRuns he hRounds hEnds.peeked
  obtain ⟨⟨expression, t⟩, hExpression⟩ := Option.isSome_iff_exists.mp hSome
  simp only [hExpression, Option.bind_some]
  split <;> rfl

/-- An engine whose depth and rounds exceed a number of tokens is total on them. -/
theorem isTotal_engine {rounds depth : Nat} (hRounds : n < rounds) (hDepth : n < depth) :
    (g.engine rounds depth).IsTotal g n := by
  induction depth generalizing n with
  | zero => cases hDepth
  | succ depth ih =>
      have hRuns := runsBy_engine hBuiltIn rounds depth
      have hBound : n < (g.engine rounds depth).rounds := by rwa [rounds_engine]
      have he : ∀ m < n, (g.engine rounds depth).IsTotal g m :=
        fun m hm => ih (by omega) (by omega)
      refine ⟨runsBy_engine hBuiltIn rounds (depth + 1), hRounds, ?_, ?_⟩
      · intro s threshold hEnds
        exact parseExpression_isSome hBuiltIn hEnd hBlocks hRuns he hBound hEnds
      · intro s wrap hEnds
        exact parseStatement_isSome hBuiltIn hEnd hBlocks hRuns he hBound hEnds

omit hBuiltIn hEnd hBlocks in
theorem parseRoot_isSome (he : e.IsTotal g n) (hEnds : s.EndsAfter n) :
    (g.parseRoot e s).isSome := by
  unfold parseRoot
  have hStart := hEnds.of_continues s.continues_consume
  split
  · exact he.returns .lowest hEnds
  · dsimp only
    split
    · have hNone : (none : Option Symbol) ≠ some .eof := by decide
      exact he.block_isSome hNone hStart
    · exact he.returns .lowest hStart

end

/-- A parser has one result in a session for all engines of a grammar whose bounds exceed the number
of the tokens that the session holds. -/
def Settles {α : Type} (g : Grammar) (s : Session) (parse : Engine → Option α) : Prop :=
  ∃ r, ∀ rounds depth, bound s ≤ rounds → bound s ≤ depth → parse (g.engine rounds depth) = some r

theorem settles (hBuiltIn : g.hasBuiltInParselets = true) (hEnd : g.infixFor? .eof = none)
    (hBlocks : g.hasOpenBlocks = true) {s : Session} (hEnding : s.ending.symbol = .eof) {α : Type}
    {parse : Engine → Option α}
    (hSome : ∀ e n, e.IsTotal g n → s.EndsAfter n → (parse e).isSome)
    (hKeeps : ∀ e e', e.IsWithin e' → Keeps (parse e) (parse e')) : g.Settles s parse := by
  have hTotal : (g.engine (bound s) (bound s)).IsTotal g (s.ahead.length + s.upcoming.length) := by
    apply isTotal_engine hBuiltIn hEnd hBlocks
    all_goals
      unfold bound
      omega
  obtain ⟨r, hResult⟩ := Option.isSome_iff_exists.mp (hSome _ _ hTotal (endsAfter_length hEnding))
  refine ⟨r, fun rounds depth hRounds hDepth => ?_⟩
  exact hKeeps _ _ (isWithin_engine hBuiltIn hRounds hDepth) r hResult

/-- Every parse ends. Whatever the source is, parsing it has a result; and so has, in every session
whose tokens end as those of a source do, each of the parsers and of the loops that the library
offers. The loops take any separators, terminators and thresholds. The result is the same for all
bounds that are high enough, so it is that of a parser without bounds. -/
theorem parse?_isSome (hBuiltIn : g.hasBuiltInParselets = true) (hEnd : g.infixFor? .eof = none)
    (hBlocks : g.hasOpenBlocks = true) (source : String) :
    (∀ filename, (g.parse? filename source).isSome) ∧
    ∀ s : Session, s.ending = (Session.ofSource g.lexicon source.toList).ending →
      g.Settles s (g.parseRoot · s) ∧
      (∀ threshold, g.Settles s (·.expression threshold s)) ∧
      (∀ wrap, g.Settles s (·.statement wrap s)) ∧
      (∀ opening separator terminator wrap, separator ≠ some .eof →
        g.Settles s (·.block opening separator terminator wrap s)) ∧
      (∀ separator terminator power, g.Settles s (·.separated separator terminator power s)) ∧
      (∀ separator power terminators,
        g.Settles s (·.separatedUntil separator power terminators s)) ∧
      (∀ power terminators, g.Settles s (·.juxtaposed power terminators s)) ∧
      ∀ recovery, g.Settles s (s.synchronize recovery ·.rounds) := by
  have hSource := Session.ending_ofSource g.lexicon source.toList
  refine ⟨fun filename => ?_, fun s hEnding => ?_⟩
  · obtain ⟨⟨root, t⟩, hRoot⟩ := settles hBuiltIn hEnd hBlocks hSource
      (fun _ _ he => parseRoot_isSome he) fun _ _ h => keeps_parseRoot h _
    simp [parse?, parseSession?, hRoot]
  · have hEnding := hEnding ▸ hSource
    refine ⟨?_, ?_, ?_, ?_, ?_, ?_, ?_, ?_⟩
    · exact settles hBuiltIn hEnd hBlocks hEnding (fun _ _ he => parseRoot_isSome he)
        fun _ _ h => keeps_parseRoot h s
    · intro threshold
      exact settles hBuiltIn hEnd hBlocks hEnding (fun _ _ he => he.returns threshold)
        fun _ _ h => h.expression threshold s
    · intro wrap
      exact settles hBuiltIn hEnd hBlocks hEnding (fun _ _ he => he.returnsStatement wrap)
        fun _ _ h => h.statement wrap s
    · intro opening separator terminator wrap hSeparator
      exact settles hBuiltIn hEnd hBlocks hEnding (fun _ _ he => he.block_isSome hSeparator)
        fun _ _ h => h.block opening separator terminator wrap s
    · intro separator terminator power
      refine settles hBuiltIn hEnd hBlocks hEnding (fun _ n he hEnds => ?_)
        fun _ _ h => h.separated separator terminator power s
      exact he.separatedFrom_isSome hEnds (Nat.le_refl n) he.bound
    · intro separator power terminators
      refine settles hBuiltIn hEnd hBlocks hEnding (fun _ n he hEnds => ?_)
        fun _ _ h => h.separatedUntilFrom separator power terminators h.rounds [] s
      exact he.separatedUntilFrom_isSome hEnds (Nat.le_refl n) he.bound
    · intro power terminators
      refine settles hBuiltIn hEnd hBlocks hEnding (fun _ n he hEnds => ?_)
        fun _ _ h => h.juxtaposedFrom power terminators h.rounds [] s
      exact he.juxtaposedFrom_isSome hEnds (Nat.le_refl n) he.bound
    · intro recovery
      refine settles hBuiltIn hEnd hBlocks hEnding (fun _ n he hEnds => ?_)
        fun _ _ h => s.keeps_synchronize recovery h.rounds
      exact synchronize_isSome recovery hEnds he.bound

end Grammar

namespace Sample

/-- The grammar with operators of every kind, calls and blocks. -/
def operatorGrammar : Grammar := (operators.grammar .standard).toOption.getD default

/-- The symbol that separates statements. -/
def semicolon : Symbol := (operatorGrammar.symbols.find? ";").getD .invalid

/-- Statements are the top level, and semicolons separate them. -/
theorem prefixFor?_sof_operatorGrammar :
    operatorGrammar.prefixFor? .sof = some (.block (some semicolon) .eof false) := by
  have hBlock : (operatorGrammar.prefixFor? .sof).bind (·.block?) =
      some (some semicolon, .eof, false) := by
    decide +kernel
  obtain ⟨parselet, hParselet, hParts⟩ := Option.bind_eq_some_iff.mp hBlock
  rw [hParselet, PrefixParselet.eq_block_of_block? hParts]

/-- A text with a call and blocks that are never closed is parsed to the end, and in the session at
its start the loops that stop at nothing but the end have a result. -/
theorem parse?_isSome_operatorGrammar :
    (operatorGrammar.parse? "open" "\x7b f(a, ; ? -- \x7b x = ").isSome ∧
      ((operatorGrammar.engine 30 30).separatedUntil .eof .lowest []
        (Session.ofSource operatorGrammar.lexicon "f(a, b".toList)).isSome := by
  have hParses := Grammar.parse?_isSome (g := operatorGrammar) (by decide +kernel)
    (by decide +kernel) (by decide +kernel)
  refine ⟨(hParses _).1 "open", ?_⟩
  obtain ⟨-, -, -, -, -, hUntil, -⟩ := (hParses "f(a, b").2 _ rfl
  obtain ⟨r, hResult⟩ := hUntil .eof .lowest []
  exact Option.isSome_iff_exists.mpr ⟨r, hResult 30 30 (by decide +kernel) (by decide +kernel)⟩

end Sample

end Precedence
