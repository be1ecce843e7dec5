import Precedence.Proofs.Assembly.Coverage
import Precedence.Proofs.Likeness.Statements

/-!
Statements that a separator keeps apart. What stands behind the separator makes the tree that it
makes by itself, whatever is wrong before it. There is one exception: where the statement before the
separator breaks off with an operand due, the separator is consumed as that operand, and then it
separates nothing.
-/
namespace Precedence

open Session

namespace Session

/-- The start of a parse of tokens between the start and the end of the input. -/
def ofSequence (source : List Char) (lexemes : List Lexeme) (last : Lexeme) : Session :=
  ofLexemes source (⟨.empty .sof 0 .origin, []⟩ :: (lexemes ++ [last])) last.token

theorem ofSource_eq {lx : Lexicon} {source : List Char} {body : List Lexeme} {last : Lexeme}
    (h : lx.lexemes source = body ++ [last]) :
    ofSource lx source = ofSequence source body last := by
  simp [ofSource, ofSequence, h]

variable {source : List Char} {lexemes : List Lexeme} {last : Lexeme}

theorem coming_ofSequence : (ofSequence source lexemes last).coming =
    .cons (.empty .sof 0 .origin) (lexemes.map (·.token) ++ₛ Stream'.const last.token) := by
  simp [ofSequence, ofLexemes, coming, Stream'.append_append_stream, Stream'.cons_append_stream,
    ← Stream'.const_eq]

theorem head_ofSequence : (ofSequence source lexemes last).coming.head.symbol = .sof := by
  rw [coming_ofSequence]
  rfl

theorem words_ofSequence : (ofSequence source lexemes last).consume.2.words =
    lexemes.map (·.token.word source) ++ₛ Stream'.const (last.token.word source) := by
  rw [words_consume, words, coming_ofSequence, Stream'.tail_map, Stream'.tail_cons,
    Stream'.map_append_stream, Stream'.map_const, List.map_map]
  rfl

theorem stays_ofSequence (hMore : ∀ lexeme ∈ lexemes, lexeme.token.symbol ≠ .eof)
    (hLast : last.token.symbol = .eof) : (ofSequence source lexemes last).consume.2.Stays := by
  intro k l hLe hEnd
  rw [coming_consume, coming_ofSequence, Stream'.tail_cons] at hEnd ⊢
  have hLong : (lexemes.map (·.token)).length ≤ k := by
    apply Nat.le_of_not_lt
    intro hShort
    rw [Stream'.get_append_left _ _ _ hShort, List.getElem_map] at hEnd
    exact hMore _ (List.getElem_mem _) hEnd
  obtain ⟨later, rfl⟩ := Nat.exists_eq_add_of_le (Nat.le_trans hLong hLe)
  rw [Stream'.get_append_right, Stream'.get_const]
  exact hLast

theorem endsAfter_ofSequence (hLast : last.token.symbol = .eof) :
    (ofSequence source lexemes last).consume.2.EndsAfter (lexemes.length + 1) := by
  have hEnds := (endsAfter_length (s := ofSequence source lexemes last) hLast).consume
  simpa [ofSequence, ofLexemes] using hEnds

/-- The tokens of a sequence, the start and the end of the input among them, and what the nesting
takes at their end. -/
theorem bound_ofSequence :
    Grammar.bound (ofSequence source lexemes last) = lexemes.length + 6 := by
  simp [Grammar.bound, ofSequence, ofLexemes]

end Session

/-- The node of statements lists them, and nothing else changes. -/
theorem Engine.exists_block {e : Engine} (opening : SourceRange) {separator : Option Symbol}
    {terminator : Symbol} {wrap : Bool} {s u : Session} {children : List NodeId}
    (h : e.statementsFrom separator terminator wrap e.rounds [] s = some (children, u)) :
    ∃ id t, e.block opening separator terminator wrap s = some (id, t) ∧ u.Continues t ∧
      t.coming = u.coming ∧ t.arena.kind? id = some (.block children separator terminator) := by
  let node := u.alloc (.block children separator terminator) (u.rangeFrom opening)
  refine ⟨node.1, node.2, ?_, u.continues_alloc _ _, rfl, u.arena.kind?_alloc_self _ _⟩
  simp only [block, h, Option.bind_eq_bind, Option.bind_some, node]
  rfl

namespace Grammar

variable {g : Grammar} {separator : Symbol} {wrap : Bool} {s t : Session} {root : NodeId}

/-- The root of the tokens of a session, and the session in which all of them have been parsed. -/
def parseFrom? (g : Grammar) (s : Session) : Option (NodeId × Session) := do
  let (root, t) ← g.parseRoot (g.engine (bound s) (bound s)) s
  return (root, g.checkEnd t)

theorem parseSession?_eq (g : Grammar) (source : String) :
    g.parseSession? source = g.parseFrom? (.ofSource g.lexicon source.toList) := rfl

section

variable (hRoot : g.prefixFor? .sof = some (.block (some separator) .eof wrap))
  (hStart : s.coming.head.symbol = .sof)

include hRoot hStart

theorem parseRoot_of_block (rounds depth : Nat) :
    g.parseRoot (g.engine rounds (depth + 1)) s =
      ((g.engine rounds depth).block s.coming.head.range (some separator) .eof wrap
        s.consume.2).bind fun r =>
          g.continueExpression (g.engine rounds depth) .lowest rounds r.1 r.2 := by
  rw [parseRoot, hRoot, Option.isSome_some, if_pos rfl]
  change g.parseExpression (g.engine rounds depth) .lowest s = _
  simp only [parseExpression_eq, startExpression, hStart, hRoot, rounds_engine]
  rw [if_neg (by decide), if_neg (by decide)]
  rfl

/-- A whole parse is a block and what goes on from it. -/
theorem parseFrom?_eq : g.parseFrom? s =
    ((g.engine (bound s) (bound s - 1)).block s.coming.head.range (some separator) .eof wrap
      s.consume.2).bind fun r =>
        (g.continueExpression (g.engine (bound s) (bound s - 1)) .lowest (bound s) r.1 r.2).bind
          fun q => some (q.1, g.checkEnd q.2) := by
  change ((g.parseRoot (g.engine (bound s) (bound s - 1 + 1)) s).bind fun q =>
    some (q.1, g.checkEnd q.2)) = _
  rw [parseRoot_of_block hRoot hStart, Option.bind_assoc]

/-- The statements of a sequence are the tree of all of it, unless an operator goes on from
them. -/
theorem exists_parseFrom?_of_statementsFrom {children : List NodeId} {u : Session}
    (h : (g.engine (bound s) (bound s - 1)).statementsFrom (some separator) .eof wrap
      (g.engine (bound s) (bound s - 1)).rounds [] s.consume.2 = some (children, u))
    (hEnd : g.power u.coming.head.symbol = .lowest) :
    ∃ root t, g.parseFrom? s = some (root, t) ∧ u.Continues t ∧
      t.arena.kind? root = some (.block children (some separator) .eof) := by
  obtain ⟨id, v, hBlock, hContinues, hComing, hKind⟩ := Engine.exists_block s.coming.head.range h
  have hRest : g.continueExpression (g.engine (bound s) (bound s - 1)) .lowest (bound s) id v =
      some (id, v.peeked) := by
    have hLowest : g.power v.coming.head.symbol ≤ .lowest := by
      rw [hComing, hEnd]
    change g.continueExpression _ .lowest (bound s - 1 + 1) id v = _
    rw [continueExpression_succ, if_pos hLowest]
  refine ⟨id, g.checkEnd v.peeked, ?_, ?_, ?_⟩
  · rw [parseFrom?_eq hRoot hStart, hBlock, Option.bind_some, hRest, Option.bind_some]
  · exact (hContinues.trans v.continues_peeked).trans (Run.continues (run_checkEnd g _))
  · rw [arena_checkEnd, arena_peeked, hKind]

/-- The tree of a sequence is a block of its statements, and no operator goes on at its end. -/
theorem exists_statementsFrom_of_parseFrom? (hBuiltIn : g.hasBuiltInParselets = true)
    (hStays : s.consume.2.Stays) (h : g.parseFrom? s = some (root, t)) :
    ∃ children u, (g.engine (bound s) (bound s - 1)).statementsFrom (some separator) .eof wrap
        (g.engine (bound s) (bound s - 1)).rounds [] s.consume.2 = some (children, u) ∧
      u.EndsAfter 0 ∧ g.power .eof = .lowest ∧ u.Continues t ∧
      t.arena.kind? root = some (.block children (some separator) .eof) := by
  have he := runsBy_engine hBuiltIn (bound s) (bound s - 1)
  have hParsed := h
  rw [parseFrom?_eq hRoot hStart] at hParsed
  simp only [Option.bind_eq_some_iff, Prod.exists] at hParsed
  obtain ⟨id, v, hBlock, root', w, hRest, -⟩ := hParsed
  have hLoop := hBlock
  simp only [Engine.block, Option.bind_eq_bind, Option.bind_eq_some_iff, Prod.exists] at hLoop
  obtain ⟨children, u, hChildren, -⟩ := hLoop
  have hEnds := Engine.endsAfter_of_statementsFrom he hStays hChildren
  have hPower : g.power .eof = .lowest := by
    obtain ⟨id', v', hBlock', hContinues, -⟩ := Engine.exists_block s.coming.head.range hChildren
    cases hBlock.symm.trans hBlock'
    exact power_eof_of_continueExpression hBuiltIn he (hEnds.of_continues hContinues) hRest
  have hHead : u.coming.head.symbol = .eof := hEnds 0 (Nat.le_refl 0)
  obtain ⟨root', t', hResult, hContinues, hKind⟩ :=
    exists_parseFrom?_of_statementsFrom hRoot hStart hChildren (hHead ▸ hPower)
  cases h.symm.trans hResult
  exact ⟨children, u, hChildren, hEnds, hPower, hContinues, hKind⟩

end

section

variable {source first second : List Char} {before after firstBody secondBody : List Lexeme}
  {between last firstLast secondLast : Lexeme}

/-- A sequence and a longer one are the same up to the separator, and behind it the longer one is
read as a sequence of its own. -/
theorem exists_severed_ofSequence (hBetween : between.token.symbol = separator)
    (hPlain : ∀ lexeme ∈ firstBody, lexeme.token.symbol ≠ separator ∧
      lexeme.token.symbol ≠ .eof ∧ g.opens lexeme.token.symbol = false)
    (hFirstLast : firstLast.token.symbol = .eof)
    (hBefore : before.map (·.token.word source) = firstBody.map (·.token.word first))
    (hAfter : (after ++ [last]).map (·.token.word source) =
      (secondBody ++ [secondLast]).map (·.token.word second)) :
    ∃ rest, rest.head.symbol = separator ∧
      rest.tail = (ofSequence second secondBody secondLast).consume.2.words ∧
      g.Severed separator rest (ofSequence first firstBody firstLast).consume.2.words
        (ofSequence source (before ++ between :: after) last).consume.2.words := by
  rw [List.map_append, List.map_append] at hAfter
  obtain ⟨hAfter, hLast⟩ := List.append_inj' hAfter rfl
  have hEnding : last.token.word source = secondLast.token.word second := (List.cons.inj hLast).1
  refine ⟨.cons (between.token.word source)
    (ofSequence second secondBody secondLast).consume.2.words, hBetween, rfl,
    firstBody.map (·.token.word first), Stream'.const (firstLast.token.word first),
    words_ofSequence, ?_, List.forall_mem_map.mpr hPlain, fun k => hFirstLast⟩
  rw [words_ofSequence, List.map_append, Stream'.append_append_stream, List.map_cons,
    Stream'.cons_append_stream, hBefore, hAfter, hEnding, words_ofSequence]

/-- The bound of the whole leaves the loops room for the tokens up to the separator. -/
theorem bound_ofSequence_append
    (hBefore : before.map (·.token.word source) = firstBody.map (·.token.word first))
    (hAfter : (after ++ [last]).map (·.token.word source) =
      (secondBody ++ [secondLast]).map (·.token.word second)) :
    bound (ofSequence source (before ++ between :: after) last) =
      bound (ofSequence second secondBody secondLast) + (firstBody.length + 1) := by
  have hLength : before.length = firstBody.length := by simpa using congrArg List.length hBefore
  have hLength' : after.length = secondBody.length := by simpa using congrArg List.length hAfter
  rw [bound_ofSequence, bound_ofSequence, List.length_append, List.length_cons, hLength, hLength']
  omega

/-- A statement that fails does not take the next one with it. Tokens that hold no separator and
open nothing, then a separator, and then tokens that by themselves make one statement without any
message: the last statement of all of them is the tree of the latter, whatever is wrong before the
separator and whatever the grammar does to recover. The separator must be no operator, and the first
tokens must not break off where an operand is due: there the separator is consumed in its place. -/
theorem last_statement_of_sequence (hBuiltIn : g.hasBuiltInParselets = true)
    (hRoot : g.prefixFor? .sof = some (.block (some separator) .eof wrap))
    (hPower : g.power separator = .lowest) (hBetween : between.token.symbol = separator)
    (hPlain : ∀ lexeme ∈ firstBody, lexeme.token.symbol ≠ separator ∧
      lexeme.token.symbol ≠ .eof ∧ g.opens lexeme.token.symbol = false)
    (hMore : ∀ lexeme ∈ secondBody, lexeme.token.symbol ≠ .eof)
    (hFirstLast : firstLast.token.symbol = .eof) (hSecondLast : secondLast.token.symbol = .eof)
    (hBefore : before.map (·.token.word source) = firstBody.map (·.token.word first))
    (hAfter : (after ++ [last]).map (·.token.word source) =
      (secondBody ++ [secondLast]).map (·.token.word second))
    {firstRoot secondRoot child : NodeId} {firstEnd secondEnd : Session}
    (hFirst : g.parseFrom? (ofSequence first firstBody firstLast) = some (firstRoot, firstEnd))
    (hOperands : firstEnd.HasOperands)
    (hSecond : g.parseFrom? (ofSequence second secondBody secondLast) =
      some (secondRoot, secondEnd))
    (hQuiet : secondEnd.diagnostics.toList = [])
    (hOne : secondEnd.arena.kind? secondRoot = some (.block [child] (some separator) .eof)) :
    ∃ root t children final,
      g.parseFrom? (ofSequence source (before ++ between :: after) last) = some (root, t) ∧
      t.arena.kind? root = some (.block (children ++ [final]) (some separator) .eof) ∧
      secondEnd.arena.SameTree t.arena child final := by
  have hFirstMore : ∀ lexeme ∈ firstBody, lexeme.token.symbol ≠ .eof :=
    fun lexeme hMem => (hPlain lexeme hMem).2.1
  obtain ⟨_, u, hLoop, -, hEnd, hContinues, -⟩ := exists_statementsFrom_of_parseFrom? hRoot
    head_ofSequence hBuiltIn (stays_ofSequence hFirstMore hFirstLast) hFirst
  obtain ⟨_, v, hLoop', hEnds, -, hContinues', hKind⟩ := exists_statementsFrom_of_parseFrom? hRoot
    head_ofSequence hBuiltIn (stays_ofSequence hMore hSecondLast) hSecond
  cases hOne.symm.trans hKind
  obtain ⟨rest, hRest, hTail, hSevered⟩ := exists_severed_ofSequence (g := g) hBetween hPlain
    hFirstLast hBefore hAfter
  have hBound : bound (ofSequence source (before ++ between :: after) last) =
      bound (ofSequence second secondBody secondLast) + (firstBody.length + 1) :=
    bound_ofSequence_append hBefore hAfter
  have hWithin {s : Session}
      (hLe : bound s ≤ bound (ofSequence source (before ++ between :: after) last)) :=
    isWithin_engine hBuiltIn hLe (Nat.sub_le_sub_right hLe 1)
  have hWithinFirst := hWithin (s := ofSequence first firstBody firstLast) (by
    rw [bound_ofSequence, hBound, bound_ofSequence]
    omega)
  have hWithinSecond := hWithin (s := ofSequence second secondBody secondLast) (by
    rw [hBound]
    exact Nat.le_add_right _ _)
  obtain ⟨children, later, w, hResult, hWords, hTrees⟩ := Engine.exists_statementsFrom_of_parts
    (parallels_engine hBuiltIn (isCourse_severed hEnd hPower hRest) _ _)
    (parallels_engine hBuiltIn (isCourse_of_isSteady g isSteady_eq) _ _) hWithinSecond
    (by rw [rounds_engine, rounds_engine, hBound]) (Nat.succ_pos firstBody.length) hRest hTail
    hSevered (endsAfter_ofSequence hFirstLast)
    (hWithinFirst.statementsFrom _ _ _ hWithinFirst.rounds [] _ _ hLoop)
    (hOperands.of_continues hContinues) hLoop'
    ((hasOperands_of_quiet hQuiet).of_continues hContinues')
  cases hTrees with
  | @cons _ final _ _ hFinal hNone =>
      cases hNone
      have hHead : w.coming.head.symbol = .eof :=
        (congrArg (·.head.symbol) hWords).trans (hEnds 0 (Nat.le_refl 0))
      obtain ⟨root, t, hParsed, hLast, hRootKind⟩ := exists_parseFrom?_of_statementsFrom hRoot
        head_ofSequence hResult (hHead ▸ hEnd)
      exact ⟨root, t, children, final, hParsed, hRootKind,
        hFinal.mono hContinues'.arena hLast.arena⟩

end

end Grammar

namespace Sample

open Grammar

/-- The tokens of a text with operators, without its end. -/
def tokens (text : String) : List Lexeme :=
  (operatorGrammar.lexicon.lexemes text.toList).dropLast

/-- The end of a text with operators. -/
def ending (text : String) : Lexeme :=
  (operatorGrammar.lexicon.lexemes text.toList).getLastD default

theorem ofSource_operatorGrammar (text : String) :
    ofSource operatorGrammar.lexicon text.toList =
      ofSequence text.toList (tokens text) (ending text) := by
  obtain ⟨body, last, hAll, -⟩ := operatorGrammar.lexicon.exists_lexemes_eq text.toList
  rw [ofSource_eq hAll, tokens, ending, hAll, List.dropLast_concat, List.getLastD_concat]

/-- The statements of a whole text with operators, as its root lists them. -/
def statementsOf? (r : NodeId × Session) : Option (List NodeId) := do
  let kind ← r.2.arena.kind? r.1
  if kind = .block kind.children (some semicolon) .eof then some kind.children else none

theorem kind?_of_statementsOf? {root : NodeId} {t : Session} {children : List NodeId}
    (h : statementsOf? (root, t) = some children) :
    t.arena.kind? root = some (.block children (some semicolon) .eof) := by
  obtain ⟨kind, hKind, hShape⟩ := Option.bind_eq_some_iff.mp h
  split at hShape
  · next hBlock =>
    cases hShape
    rw [hKind, ← hBlock]
  · cases hShape

/-- The first statement holds a character that starts no token, and a name too many. -/
def failingText : String := "x = 1 + $ y; f(a, b)"

/-- The first statement of the failing text fails by itself as well, and the second is the tree that
it is by itself. -/
theorem last_statement_of_sequence_failingText :
    ∃ firstRoot firstEnd root t children final secondRoot secondEnd child,
      operatorGrammar.parseSession? "x = 1 + $ y" = some (firstRoot, firstEnd) ∧
      firstEnd.diagnostics.hasErrors = true ∧
      operatorGrammar.parseSession? failingText = some (root, t) ∧
      operatorGrammar.parseSession? "f(a, b)" = some (secondRoot, secondEnd) ∧
      t.arena.kind? root = some (.block (children ++ [final]) (some semicolon) .eof) ∧
      secondEnd.arena.kind? secondRoot = some (.block [child] (some semicolon) .eof) ∧
      secondEnd.arena.SameTree t.arena child final := by
  have hFirst : (operatorGrammar.parseSession? "x = 1 + $ y").any
      (fun r => r.2.diagnostics.hasErrors && decide r.2.HasOperands) = true := by
    decide +kernel
  have hSecond : (operatorGrammar.parseSession? "f(a, b)").any (fun r =>
      r.2.diagnostics.toList.isEmpty && (statementsOf? r).any (·.length = 1)) = true := by
    decide +kernel
  have hTokens : tokens failingText = (tokens failingText).take 6 ++
      (tokens failingText)[6]?.getD default :: (tokens failingText).drop 7 := by
    decide +kernel
  obtain ⟨⟨firstRoot, firstEnd⟩, hFirst, hFails⟩ := (Option.any_eq_true _ _).mp hFirst
  obtain ⟨⟨secondRoot, secondEnd⟩, hSecond, hShape⟩ := (Option.any_eq_true _ _).mp hSecond
  simp only [Bool.and_eq_true, decide_eq_true_eq, List.isEmpty_iff] at hFails hShape
  obtain ⟨hErrors, hOperands⟩ := hFails
  obtain ⟨hQuiet, hShape⟩ := hShape
  obtain ⟨all, hAll, hLength⟩ := (Option.any_eq_true _ _).mp hShape
  obtain ⟨child, rfl⟩ := List.length_eq_one_iff.mp (of_decide_eq_true hLength)
  have hKind := kind?_of_statementsOf? hAll
  have hFirstParsed := hFirst
  have hSecondParsed := hSecond
  rw [parseSession?_eq, ofSource_operatorGrammar] at hFirstParsed hSecondParsed
  have hWhole : ∃ root t children final, operatorGrammar.parseFrom? (ofSequence failingText.toList
        ((tokens failingText).take 6 ++
          (tokens failingText)[6]?.getD default :: (tokens failingText).drop 7)
        (ending failingText)) = some (root, t) ∧
      t.arena.kind? root = some (.block (children ++ [final]) (some semicolon) .eof) ∧
      secondEnd.arena.SameTree t.arena child final :=
    last_statement_of_sequence (by decide +kernel) prefixFor?_sof_operatorGrammar
      (by decide +kernel) (by decide +kernel) (by decide +kernel) (by decide +kernel)
      (by decide +kernel) (by decide +kernel) (by decide +kernel) (by decide +kernel)
      hFirstParsed hOperands hSecondParsed hQuiet hKind
  rw [← hTokens, ← ofSource_operatorGrammar, ← parseSession?_eq] at hWhole
  obtain ⟨root, t, children, final, hParsed, hRoot, hSame⟩ := hWhole
  exact ⟨firstRoot, firstEnd, root, t, children, final, secondRoot, secondEnd, child, hFirst,
    hErrors, hParsed, hSecond, hRoot, hKind, hSame⟩

/-- A statement that breaks off takes the separator for its operand, and then the name behind it is
passed over. By itself the name is a statement without any message. -/
theorem last_statement_lost :
    operatorGrammar.hasBuiltInParselets = true ∧
    operatorGrammar.options.recovery = .skipToBoundary ∧
    (tokens "a + ; b").map (·.token.symbol) = (tokens "a +").map (·.token.symbol) ++
      semicolon :: (tokens "b").map (·.token.symbol) ∧
    (∀ lexeme ∈ tokens "a +", lexeme.token.symbol ≠ semicolon ∧
      lexeme.token.symbol ≠ .eof ∧ operatorGrammar.opens lexeme.token.symbol = false) ∧
    ∃ root t children final secondRoot secondEnd child,
      operatorGrammar.parseSession? "a + ; b" = some (root, t) ∧
      operatorGrammar.parseSession? "b" = some (secondRoot, secondEnd) ∧
      secondEnd.diagnostics.toList = [] ∧
      t.arena.kind? root = some (.block (children ++ [final]) (some semicolon) .eof) ∧
      secondEnd.arena.kind? secondRoot = some (.block [child] (some semicolon) .eof) ∧
      ¬secondEnd.arena.SameTree t.arena child final := by
  have hWhole : (operatorGrammar.parseSession? "a + ; b").any (fun r => (statementsOf? r).any
      fun all => all.length = 2 ∧ ∀ final ∈ all, r.2.arena.isName final = false) = true := by
    decide +kernel
  have hSecond : (operatorGrammar.parseSession? "b").any (fun r =>
      r.2.diagnostics.toList.isEmpty && (statementsOf? r).any
        fun all => all.length = 1 ∧ ∀ child ∈ all, r.2.arena.isName child = true) = true := by
    decide +kernel
  refine ⟨by decide +kernel, by decide +kernel, by decide +kernel, by decide +kernel, ?_⟩
  obtain ⟨⟨root, t⟩, hParsed, hShape⟩ := (Option.any_eq_true _ _).mp hWhole
  obtain ⟨⟨secondRoot, secondEnd⟩, hSecond, hShape'⟩ := (Option.any_eq_true _ _).mp hSecond
  simp only [Bool.and_eq_true, List.isEmpty_iff] at hShape'
  obtain ⟨hQuiet, hShape'⟩ := hShape'
  obtain ⟨all, hAll, hParts⟩ := (Option.any_eq_true _ _).mp hShape
  obtain ⟨all', hAll', hParts'⟩ := (Option.any_eq_true _ _).mp hShape'
  obtain ⟨hLength, hNoName⟩ := of_decide_eq_true hParts
  obtain ⟨hLength', hName⟩ := of_decide_eq_true hParts'
  obtain ⟨first, final, rfl⟩ := List.length_eq_two.mp hLength
  obtain ⟨child, rfl⟩ := List.length_eq_one_iff.mp hLength'
  refine ⟨root, t, [first], final, secondRoot, secondEnd, child, hParsed, hSecond, hQuiet,
    kind?_of_statementsOf? hAll, kind?_of_statementsOf? hAll', fun hSame => ?_⟩
  have hOther := hSame.isName_eq
  rw [hName child (by simp), hNoName final (by simp)] at hOther
  cases hOther

end Sample

end Precedence
