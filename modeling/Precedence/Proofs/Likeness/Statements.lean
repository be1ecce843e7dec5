import Precedence.Proofs.Engine.Termination
import Precedence.Proofs.Likeness.Engine

/-!
Statements up to a separator. Where one sequence ends, another goes on with a separator and more;
before that both are the same, and nothing is opened. As long as the first does not miss an operand
at its end, its statements are those that the second has before the separator: the separator ends
them as the end of the input does, and it is consumed behind them, be it as what follows a statement
or as what stands before the next one.
-/
namespace Precedence

open Session

variable {g : Grammar} {e : Engine} {separator terminator : Symbol} {wrap : Bool} {s s' t : Session}

/-! ### Separators -/

namespace RecoverySet

theorem contains_insert_self (r : RecoverySet) (symbol : Symbol) :
    (r.insert symbol).contains symbol = true := by
  unfold insert contains
  split
  · next hMem => exact decide_eq_true hMem
  · simp

theorem contains_insert {r : RecoverySet} (symbol : Symbol) {other : Symbol}
    (h : r.contains other = true) : (r.insert symbol).contains other = true := by
  have hMem : other ∈ r.symbols := of_decide_eq_true h
  unfold insert contains
  split
  · exact h
  · simp [hMem]

end RecoverySet

namespace Engine

/-- Behind the separators the next token has been looked at, and is none. -/
theorem head_of_skipSeparators {rounds : Nat} (h : skipSeparators separator rounds s = some t) :
    t.coming.head.symbol ≠ separator ∧ t.peeked = t := by
  induction rounds generalizing s with
  | zero => cases h
  | succ rounds ih =>
      rw [skipSeparators_succ] at h
      split at h
      · exact ih h
      · next hOther =>
        cases h
        rw [coming_peeked]
        exact ⟨hOther, s.peeked_peeked⟩

theorem rounds_pos_of_skipBefore (h : e.skipBefore (some separator) s = some t) :
    0 < e.rounds := by
  apply Nat.pos_of_ne_zero
  intro hZero
  rw [skipBefore, hZero] at h
  cases h

theorem skipBefore_of_ne (hOther : s.coming.head.symbol ≠ separator) (hRounds : 0 < e.rounds) :
    e.skipBefore (some separator) s = some s.peeked := by
  obtain ⟨rounds, hSucc⟩ := Nat.exists_eq_add_of_lt hRounds
  rw [skipBefore, hSucc, skipSeparators_succ, if_neg hOther]

/-- One separator has to be skipped first. -/
theorem skipBefore_of_eq (hHead : s.coming.head.symbol = separator)
    (h : skipSeparators separator (e.rounds - 1) s.consume.2 = some t) :
    e.skipBefore (some separator) s = some t := by
  have hRounds : e.rounds = e.rounds - 1 + 1 := by
    cases hEq : e.rounds with
    | zero =>
        rw [hEq] at h
        cases h
    | succ rounds => rfl
  rw [skipBefore, hRounds, skipSeparators_succ, if_pos hHead]
  exact h

/-- The loop over the statements does not tell whether the separators before the next one have been
skipped. -/
theorem statementsFrom_of_skipBefore {rounds : Nat} {found : List NodeId}
    (h : e.skipBefore (some separator) s = some t) :
    e.statementsFrom (some separator) terminator wrap rounds found s =
      e.statementsFrom (some separator) terminator wrap rounds found t := by
  obtain ⟨hOther, hPeeked⟩ := head_of_skipSeparators h
  cases rounds with
  | zero => rfl
  | succ rounds =>
      rw [statementsFrom_succ, statementsFrom_succ, h,
        skipBefore_of_ne hOther (rounds_pos_of_skipBefore h), hPeeked]

theorem exists_skipBefore_of_statementsFrom {separator : Option Symbol} {rounds : Nat}
    {found : List NodeId} {r : List NodeId × Session}
    (h : e.statementsFrom separator terminator wrap rounds found s = some r) :
    ∃ t, e.skipBefore separator s = some t := by
  cases rounds with
  | zero => cases h
  | succ rounds =>
      rw [statementsFrom_succ] at h
      obtain ⟨t, hSkip, -⟩ := Option.bind_eq_some_iff.mp h
      exact ⟨t, hSkip⟩

/-- One turn of the loop, where a statement starts. -/
theorem statementsFrom_of_ne (hOther : s.coming.head.symbol ≠ separator)
    (hOpen : s.coming.head.symbol ≠ terminator) (hMore : s.coming.head.symbol ≠ .eof)
    (hRounds : 0 < e.rounds) (wrap : Bool) (rounds : Nat) (found : List NodeId) :
    e.statementsFrom (some separator) terminator wrap (rounds + 1) found s =
      (e.statement wrap s.peeked).bind fun r =>
        (e.afterStatement separator terminator (s.peeked.errorCount < r.2.errorCount) r.2).bind
          fun skipped => e.statementsFrom (some separator) terminator wrap rounds
            (skipped.1.toList ++ r.1 :: found) skipped.2 := by
  rw [statementsFrom_succ, skipBefore_of_ne hOther hRounds, Option.bind_some, coming_peeked,
    if_neg hOpen, if_neg hMore, peeked_peeked]

end Engine

/-! ### The end of the input -/

namespace Session

/-- Behind the end of the input there is nothing else. -/
def Stays (s : Session) : Prop :=
  ∀ k l, k ≤ l → (s.coming.get k).symbol = .eof → (s.coming.get l).symbol = .eof

theorem Stays.of_continues (h : s.Stays) (hContinues : s.Continues t) : t.Stays := by
  obtain ⟨n, hComing⟩ := hContinues.coming
  intro k l hLe hEnd
  rw [hComing, Stream'.get_drop] at hEnd ⊢
  exact h _ _ (by omega) hEnd

theorem Stays.endsAfter (h : s.Stays) (hHead : s.coming.head.symbol = .eof) : s.EndsAfter 0 :=
  fun k hLe => h 0 k hLe hHead

end Session

/-- Statements that are read up to the end of the input leave nothing else. -/
theorem Engine.endsAfter_of_statementsFrom (he : e.RunsBy g) {separator : Option Symbol}
    {rounds : Nat} {found children : List NodeId} (hStays : s.Stays)
    (h : e.statementsFrom separator .eof wrap rounds found s = some (children, t)) :
    t.EndsAfter 0 := by
  induction rounds generalizing found s with
  | zero => cases h
  | succ rounds ih =>
      rw [statementsFrom_succ] at h
      simp only [Option.bind_eq_some_iff] at h
      obtain ⟨u, hBefore, h⟩ := h
      have hStart := hStays.of_continues (Moves.continues (moves_skipBefore hBefore))
      split at h
      · next hEnd =>
        cases h
        exact (hStart.endsAfter hEnd).consume
      · simp only [Option.bind_eq_some_iff, Prod.exists] at h
        obtain ⟨statement, v, hStatement, h⟩ := h
        have hBehind := (hStart.of_continues u.continues_peeked).of_continues
          (Grammar.Run.continues (he.run_statement hStatement))
        cases separator with
        | none => exact ih hBehind h
        | some boundary =>
            simp only [Option.bind_eq_some_iff, Prod.exists] at h
            obtain ⟨skipped, w, hAfter, h⟩ := h
            have hRun := run_afterStatement he hasErrors_of_errorCount_lt hAfter
            exact ih (hBehind.of_continues (Grammar.Run.continues hRun)) h

/-- No operator goes on from an expression at the end of the input, for then it would go on for
ever. -/
theorem Grammar.power_eof_of_continueExpression (hBuiltIn : g.hasBuiltInParselets = true)
    (he : e.RunsBy g) {rounds : Nat} {left id : NodeId} (hEnds : s.EndsAfter 0)
    (h : g.continueExpression e .lowest rounds left s = some (id, t)) :
    g.power .eof = .lowest := by
  induction rounds generalizing left s with
  | zero => cases h
  | succ rounds ih =>
      have hHead : s.coming.head.symbol = .eof := hEnds 0 (Nat.le_refl 0)
      rw [continueExpression_succ, hHead] at h
      split at h
      · next hLowest => exact Nat.le_zero.mp hLowest
      · next hPower =>
        split at h
        · next hNone => exact absurd (Nat.le_of_eq (power_of_infixFor?_eq_none hNone)) hPower
        · next parselet hParselet =>
          simp only [Option.bind_eq_some_iff, Prod.exists] at h
          obtain ⟨operand, u, hOperand, hRest⟩ := h
          have hRun := Engine.run_parseInfix he (isBuiltIn_of_infixFor? hBuiltIn hParselet) hOperand
          exact ih (hEnds.consume.of_continues (Run.continues hRun)) hRest

/-! ### Statements before a separator -/

/-- Two sequences are the same up to where the first ends and the second goes on with `rest`. What
is the same opens nothing and holds neither the separator nor the end of the input. -/
def Grammar.Severed (g : Grammar) (separator : Symbol) (rest x y : Stream' Word) : Prop :=
  ∃ before ending, x = before ++ₛ ending ∧ y = before ++ₛ rest ∧
    (∀ w ∈ before, w.symbol ≠ separator ∧ w.symbol ≠ .eof ∧ g.opens w.symbol = false) ∧
    ∀ k, (ending.get k).symbol = .eof

section

variable {rest x y : Stream' Word}

/-- Either the second sequence has come to the rest, or the sequences are the same for one more. -/
theorem Grammar.Severed.step (h : g.Severed separator rest x y) :
    ((∀ k, (x.get k).symbol = .eof) ∧ y = rest) ∨
    (x.head = y.head ∧ g.Severed separator rest x.tail y.tail ∧ x.head.symbol ≠ separator ∧
      x.head.symbol ≠ .eof ∧ g.opens x.head.symbol = false) := by
  obtain ⟨before, ending, rfl, rfl, hPlain, hEnding⟩ := h
  cases before with
  | nil => exact .inl ⟨hEnding, rfl⟩
  | cons w before =>
      obtain ⟨hFirst, hRest⟩ := List.forall_mem_cons.mp hPlain
      exact .inr ⟨rfl, ⟨before, ending, rfl, rfl, hRest, hEnding⟩, hFirst⟩

theorem Grammar.isCourse_severed (hEnd : g.power .eof = .lowest)
    (hPower : g.power separator = .lowest) (hRest : rest.head.symbol = separator) :
    g.IsCourse (g.Severed separator rest) := by
  intro x y h
  rcases h.step with ⟨hOver, rfl⟩ | ⟨hHead, hTail, -, -, hClosed⟩
  · exact .inr ⟨hOver, hEnd, hRest ▸ hPower⟩
  · exact .inl ⟨hHead, hTail, .inr hClosed⟩

/-- The sequences part where both have come to a boundary. -/
theorem Grammar.Severed.step_boundary (h : g.Severed separator rest x y)
    (hRest : rest.head.symbol = separator) :
    (x.head = y.head ∧ g.Severed separator rest x.tail y.tail) ∨
      ((Engine.boundary separator .eof).contains x.head.symbol = true ∧
        (Engine.boundary separator .eof).contains y.head.symbol = true) := by
  rcases h.step with ⟨hOver, rfl⟩ | ⟨hHead, hTail, -⟩
  · have hEnd : x.head.symbol = .eof := hOver 0
    rw [hEnd, hRest]
    exact .inr ⟨RecoverySet.contains_insert_self _ _,
      RecoverySet.contains_insert _ (RecoverySet.contains_insert_self _ _)⟩
  · exact .inl ⟨hHead, hTail⟩

namespace Engine

/-- The statements of a sequence that ends are those that another one has before the separator, and
what comes next there is behind the separator. Every statement takes a token, so as many rounds are
left as there were tokens to spare. -/
theorem exists_statementsFrom_of_severed (he : e.Parallels g (g.Severed separator rest))
    (hRest : rest.head.symbol = separator) (hRounds : 0 < e.rounds) {n rounds : Nat}
    {found children : List NodeId} (found' : List NodeId)
    (h : g.Severed separator rest s.words s'.words) (hEnds : s.EndsAfter n)
    (hOperands : t.HasOperands)
    (hParsed : e.statementsFrom (some separator) .eof wrap rounds found s = some (children, t)) :
    ∃ later before u, rounds ≤ later + n ∧ u.words = rest.tail ∧
      ∀ v, skipSeparators separator (e.rounds - 1) u = some v →
        e.statementsFrom (some separator) .eof wrap rounds found' s' =
          e.statementsFrom (some separator) .eof wrap later before v := by
  induction rounds generalizing found found' s s' n with
  | zero => cases hParsed
  | succ rounds ih =>
      rcases h.step with ⟨-, hAtRest⟩ | ⟨hHead, -, hOther, hMore, -⟩
      · have hHead : s'.words.head.symbol = separator := hAtRest ▸ hRest
        refine ⟨rounds + 1, found', s'.consume.2, Nat.le_add_right _ _, ?_, fun v hSkip => ?_⟩
        · rw [words_consume, hAtRest]
        · exact statementsFrom_of_skipBefore (skipBefore_of_eq hHead hSkip)
      · have hSymbol : s.coming.head.symbol = s'.coming.head.symbol := congrArg Word.symbol hHead
        rw [head_words, Token.symbol_word] at hOther hMore
        have hPos := hEnds.pos hMore
        rw [statementsFrom_of_ne hOther hMore hMore hRounds] at hParsed
        simp only [Option.bind_eq_some_iff, Prod.exists] at hParsed
        obtain ⟨statement, v, hStatement, skipped, w, hAfter, hParsed⟩ := hParsed
        have hRunAfter := run_afterStatement he.toRunsBy hasErrors_of_errorCount_lt hAfter
        have hRunRest := run_statementsFrom he.toRunsBy hParsed
        have hLater := hOperands.of_continues (Grammar.Run.continues hRunRest)
        obtain ⟨⟨statement', v'⟩, hStatement', hAgree⟩ := he.mirrorsStatement (related_peeked h) _
          hStatement (hLater.of_continues (Grammar.Run.continues hRunAfter))
        have hBehind : v.EndsAfter (n - 1) := by
          have hRun := he.statement hStatement
          rw [consume_peeked] at hRun
          exact hEnds.consume.of_continues (Grammar.Run.continues hRun)
        have hTurn := statementsFrom_of_ne (hSymbol ▸ hOther) (hSymbol ▸ hMore)
          (hSymbol ▸ hMore) hRounds wrap rounds found'
        rw [hStatement', Option.bind_some] at hTurn
        rcases hAgree.course.step with ⟨-, hAtRest⟩ | ⟨hNext, hNextTail, -⟩
        · have hNext : v'.coming.head.symbol = separator :=
            (congrArg (·.head.symbol) hAtRest).trans hRest
          refine ⟨rounds, statement' :: found', v'.consume.2, by omega, ?_, fun u hSkip => ?_⟩
          · rw [words_consume]
            exact congrArg Stream'.tail hAtRest
          · rw [hTurn, afterStatement_eq, if_pos hNext, Option.bind_some]
            refine statementsFrom_of_skipBefore ?_
            exact keeps_skipSeparators separator (Nat.sub_le _ 1) _ _ hSkip
        · obtain ⟨⟨skipped', w'⟩, hAfter', hSkipped⟩ := mirrors_afterStatement he.toRunsBy
            (fun _ _ hPair => hPair.step_boundary hRest) hAgree.course hNext hNextTail
            hasErrors_of_errorCount_lt hasErrors_of_errorCount_lt _ hAfter hLater
          obtain ⟨later, before, u, hLe, hWords, hLoop⟩ := ih _ hSkipped.agree.1
            (hBehind.of_continues (Grammar.Run.continues hRunAfter)) hParsed
          refine ⟨later, before, u, by omega, hWords, fun x hSkip => ?_⟩
          rw [hTurn, hAfter', Option.bind_some]
          exact hLoop x hSkip

/-- Behind the statements of the first sequence and the separator come those of the second. The
engine has rounds for both. -/
theorem exists_statementsFrom_of_parts {e' : Engine} {a b u v : Session} {n : Nat}
    {first second : List NodeId} (he : e.Parallels g (g.Severed separator rest))
    (hSame : e.Parallels g Eq) (hWithin : e'.IsWithin e) (hRounds : e'.rounds + n ≤ e.rounds)
    (hPos : 0 < n) (hRest : rest.head.symbol = separator) (hTail : rest.tail = b.words)
    (h : g.Severed separator rest a.words s.words) (hEnds : a.EndsAfter n)
    (hFirst : e.statementsFrom (some separator) .eof wrap e.rounds [] a = some (first, u))
    (hOperands : u.HasOperands)
    (hSecond : e'.statementsFrom (some separator) .eof wrap e'.rounds [] b = some (second, v))
    (hOperands' : v.HasOperands) :
    ∃ earlier later t, e.statementsFrom (some separator) .eof wrap e.rounds [] s =
        some (earlier ++ later, t) ∧ t.words = v.words ∧
      v.arena.SameTrees t.arena second later := by
  obtain ⟨rounds, found, w, hLater, hWords, hLoop⟩ := exists_statementsFrom_of_severed he hRest
    (by omega) [] h hEnds hOperands hFirst
  have hAligned : b.words = w.words := hTail.symm.trans hWords.symm
  -- the separators that follow are skipped in the second sequence as well
  obtain ⟨b', hSkip⟩ := exists_skipBefore_of_statementsFrom hSecond
  obtain ⟨w', hSkip', -⟩ := exists_skipSeparators isSteady_eq hAligned hSkip
  have hStart : e.skipBefore (some separator) w = some w' :=
    keeps_skipSeparators separator (by omega) w w' hSkip'
  have hWhole := (hLoop w' (keeps_skipSeparators separator (by omega) w w' hSkip')).trans
    (statementsFrom_of_skipBefore hStart).symm
  have hMirrors : Mirrors (AgreeBehind Eq [] found)
      (e.statementsFrom (some separator) .eof wrap rounds [] b)
      (e.statementsFrom (some separator) .eof wrap rounds found w) :=
    mirrors_statementsFrom isSteady_eq hSame hAligned
  obtain ⟨⟨children, t⟩, hResult, behind, later, hBehind, hChildren, hSameWords, hTrees⟩ :=
    hMirrors _ (hWithin.statementsFrom _ _ _ (by omega) [] b _ hSecond) hOperands'
  obtain rfl : second = behind := hBehind
  refine ⟨found.reverse, later, t, ?_, hSameWords.symm, hTrees⟩
  rw [hWhole, hResult]
  exact congrArg (fun children => some (children, t)) hChildren

end Engine

end

end Precedence
