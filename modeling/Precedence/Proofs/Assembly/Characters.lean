import Precedence.Proofs.Assembly.Engine
import Precedence.Proofs.Assembly.Tiling
import Precedence.Proofs.Engine.Termination
import Precedence.Proofs.Lexer.Reports

/-!
Characters that start no token. The lexer reports each of them and makes an invalid token of it, and
after that the parser speaks about other tokens: a fault is reported about the next token or the one
consumed last, if that is valid, or within its text. So nothing else has the range of such a
character, except where its node is refused as a parameter list or it is left over at the end; and
unless it is left over, it shows in the tree.
-/
namespace Precedence

open Session Relation

variable {g : Grammar} {s t : Session} {floor n : Nat} {tokens : Stream' Token}

/-! ### Where faults are reported -/

/-- What can be reported at a bench, and where. -/
inductive Bench.Faults (b : Bench) : SyntaxFault → SourceRange → Prop
  | next {f : SyntaxFault}
      (hNext : b.session.coming.head.symbol = .invalid → ∃ found, f = .trailing found) :
      Faults b f b.session.coming.head.range
  | escape {p : List Piece} {id : NodeId} {sequence : List Char} {range : SourceRange}
      (hPieces : b.pieces = p ++ [.node id]) (hValid : b.session.previous.symbol ≠ .invalid)
      (hSome : range.span.start < range.span.stop)
      (hWithin : range.span.IsWithin b.session.previous.text) :
      Faults b (.invalidEscape sequence) range
  | parameters (range : SourceRange) : Faults b .invalidParameters range
  | reject {f : SyntaxFault} (hPiece : .token b.session.previous ∈ b.pieces)
      (hValid : b.session.previous.symbol ≠ .invalid) : Faults b f b.session.previous.range

namespace Grammar

variable {b c : Bench}

/-- If no fault that can be reported passes a test, the messages that do stay the same. -/
theorem Act.filter_log {P : Message → Bool} (h : g.Act floor b c)
    (hP : ∀ f range, b.Faults f range → P (f.message g.symbols range) = false) :
    c.session.log.filter P = b.session.log.filter P := by
  cases h with
  | look s => exact congrArg (·.filter P) s.log_peeked
  | consume s => exact congrArg (·.filter P) s.log_consume
  | fault s p hNext => exact filter_log_report (hP _ _ (.next hNext))
  | escape s p hValid hSome hStart hStop =>
      exact filter_log_report (hP _ _ (.escape rfl hValid hSome ⟨hStart, hStop⟩))
  | parameters s p => exact filter_log_report (hP _ _ (.parameters _))
  | intern => rfl
  | make => rfl
  | ungroup => rfl
  | reject s p hValid =>
      refine filter_log_report (hP _ _ (.reject ?_ hValid))
      exact List.mem_append_right _ List.mem_cons_self
  | pass => rfl

theorem Builds.filter_log {P : Message → Bool} (h : g.Builds floor b c)
    (hOrder : ∀ m, AreInOrder (tokens.take m)) (hTiled : b.IsTiled g tokens n)
    (hP : ∀ (d : Bench) m f range, d.IsTiled g tokens m → d.Faults f range →
      P (f.message g.symbols range) = false) :
    c.session.log.filter P = b.session.log.filter P := by
  induction h with
  | refl => rfl
  | tail hBefore hLast ih =>
      obtain ⟨m, -, hHere⟩ := Builds.exists_isTiled hBefore hOrder hTiled
      exact (hLast.filter_log fun f range => hP _ m f range hHere).trans ih

end Grammar

/-- A fault that is reported just at an invalid token says that its node is no parameter list, or
that the token is left over. -/
theorem Bench.Faults.code_eq {b : Bench} {f : SyntaxFault} {range : SourceRange} {k : Nat}
    (h : b.Faults f range) (hOrdered : IsOrdered tokens) (hTiled : b.IsTiled g tokens n)
    (hText : ∀ i, (tokens.get i).HoldsText) (hInvalid : (tokens.get k).symbol = .invalid)
    (hSolid : (tokens.get k).range.span.start < (tokens.get k).range.span.stop)
    (hSpan : range.span = (tokens.get k).range.span) :
    f.code = .invalidParameter ∨ f.code = .trailingInput := by
  have hSame {i : Nat} (hWithin : range.span.IsWithin (tokens.get i).range.span) : i = k :=
    hOrdered.index_eq (hSpan ▸ hSolid) hWithin (hSpan ▸ .refl _)
  cases h with
  | next hNext =>
      have hHead : b.session.coming.head = tokens.get n := by
        rw [show b.session.coming = tokens.drop n from hTiled.coming, Stream'.head_drop]
      rw [hHead] at hSame hNext
      obtain rfl := hSame (.refl _)
      obtain ⟨found, rfl⟩ := hNext hInvalid
      exact .inr rfl
  | @escape p id sequence range hPieces hValid hSome hWithin =>
      have hTiles := hTiled.tiles
      rw [hPieces] at hTiles
      obtain ⟨front, own, hTokens, -, hOwn⟩ := hTiles.exists_of_append
      obtain ⟨first, last, -, hLast, -⟩ := hOwn.of_singleton_node.spans
      have hAll : (tokens.take n).getLast? = some last := by
        rw [hTokens, List.getLast?_append, hLast, Option.some_or]
      obtain ⟨i, hToken⟩ := exists_get_of_mem_take (List.mem_of_getLast? hAll)
      have hPrevious := (hTiled.previous _ hAll).trans hToken
      rw [hPrevious] at hValid hWithin
      obtain rfl := hSame (hWithin.trans (hText i))
      exact absurd hInvalid hValid
  | parameters => exact .inl rfl
  | reject hPiece hValid =>
      obtain ⟨i, hToken⟩ := exists_get_of_mem_take (hTiled.tiles.mem_of_token hPiece)
      rw [hToken] at hSame hValid
      obtain rfl := hSame (.refl _)
      exact absurd hInvalid hValid

theorem SyntaxFault.code_ne_invalidCharacter (f : SyntaxFault) : f.code ≠ .invalidCharacter := by
  cases f with
  | _ => exact fun hCode => by cases hCode

/-! ### The tokens of a source -/

namespace Lexicon

variable {lx : Lexicon} {source : List Char}

theorem holdsText_ofSource (hBuiltIn : lx.isBuiltIn = true) (source : List Char) (i : Nat) :
    ((ofSource lx source).coming.get i).HoldsText := by
  obtain ⟨body, last, hAll, -, -⟩ := lx.exists_lexemes_eq source
  have hTexts : ∀ τ ∈ (lx.lexemes source).map (·.token), τ.HoldsText :=
    List.forall_mem_map.mpr ((lx.reads_lexemes source).holdsText hBuiltIn)
  rw [hAll, List.map_append, List.map_singleton] at hTexts
  rw [coming_ofSource hAll]
  cases i with
  | zero => exact Token.holdsText_covering _ _
  | succ i => exact hTexts _ (get_append_const_mem _ _ i)

/-- Every token of a source comes to be found. -/
theorem exists_get_of_mem_lexemes {lexeme : Lexeme} (h : lexeme ∈ lx.lexemes source) :
    ∃ k, (ofSource lx source).coming.get k = lexeme.token := by
  obtain ⟨body, last, hAll, -, -⟩ := lx.exists_lexemes_eq source
  have hToken := List.mem_map_of_mem (f := (·.token)) h
  rw [hAll, List.map_append, List.map_singleton] at hToken
  obtain ⟨i, hFound⟩ := exists_get_append_const _ _ hToken
  refine ⟨i + 1, ?_⟩
  rw [coming_ofSource hAll]
  exact hFound

/-- No other token of a source stands where one that covers some text does. -/
theorem eq_of_token_eq (hLiterals : ∀ rule ∈ lx.literals, rule.isBuiltIn = true)
    {first second : Lexeme} (hFirst : first ∈ lx.lexemes source)
    (hSecond : second ∈ lx.lexemes source)
    (hSolid : first.token.range.span.start < first.token.range.span.stop)
    (hSame : second.token = first.token) : second = first := by
  have hPairwise := List.pairwise_iff_getElem.mp
    (List.pairwise_map.mp ((lx.reads_lexemes source).pairwise hLiterals))
  obtain ⟨i, hi, rfl⟩ := List.mem_iff_getElem.mp hFirst
  obtain ⟨j, hj, rfl⟩ := List.mem_iff_getElem.mp hSecond
  rcases Nat.lt_trichotomy i j with hLess | rfl | hMore
  · have hPrecedes := hPairwise i j hi hj hLess
    rw [hSame, Token.Precedes] at hPrecedes
    exact absurd hSolid (Nat.not_lt_of_le hPrecedes)
  · rfl
  · have hPrecedes := hPairwise j i hj hi hMore
    rw [hSame, Token.Precedes] at hPrecedes
    exact absurd hSolid (Nat.not_lt_of_le hPrecedes)

end Lexicon

/-- What a session finds has been looked at, or has not, or is the end. -/
theorem Session.get_coming_mem (s : Session) (i : Nat) :
    s.coming.get i ∈ s.ahead ++ (s.upcoming.map (·.token) ++ [s.ending]) := by
  rw [coming, ← Stream'.append_append_stream, ← List.append_assoc]
  exact get_append_const_mem _ _ i

namespace Grammar

/-- What is left over is reported. -/
theorem reported_of_leftover (hEnd : g.options.enforceEnd = true)
    (hLeft : (g.checkEnd s).coming.head.symbol ≠ .eof) :
    ∃ m ∈ (g.checkEnd s).diagnostics.toList, m.code = .trailingInput ∧
      m.range = (g.checkEnd s).coming.head.range := by
  unfold checkEnd at hLeft ⊢
  rw [if_pos hEnd, lookahead_zero] at hLeft ⊢
  dsimp only at hLeft ⊢
  split
  · next hHead =>
    rw [if_pos hHead, coming_peeked] at hLeft
    exact absurd hHead hLeft
  · refine ⟨(SyntaxFault.trailing s.coming.head.symbol).message g.symbols s.coming.head.range,
      ?_, rfl, ?_⟩
    · simp [fault, report, Diagnostics.push, Diagnostics.toList]
    · exact congrArg (·.head.range) s.coming_peeked.symm

theorem builds_checkEnd (s : Session) (p : List Piece) :
    g.Builds floor ⟨s, p⟩ ⟨g.checkEnd s, p⟩ := by
  unfold checkEnd
  split
  · rw [lookahead_zero]
    dsimp only
    split
    · exact builds_peeked g floor s p
    · exact builds_fault g floor s p fun _ => ⟨_, rfl⟩
  · exact .refl

/-- The whole parse of a source leaves its root on the bench, and nothing in front of it but the
start of the input. -/
theorem exists_builds_parseSession? (hBuiltIn : g.hasBuiltInParselets = true) {source : String}
    {root : NodeId} (h : g.parseSession? source = some (root, t)) :
    ∃ front, (∀ τ, .token τ ∈ front → τ.symbol = .sof) ∧ Piece.nodes front = [] ∧
      g.Builds 0 ⟨ofSource g.lexicon source.toList, []⟩ ⟨t, front ++ [.node root]⟩ := by
  simp only [parseSession?, Option.bind_eq_bind, Option.bind_eq_some_iff, Prod.exists] at h
  obtain ⟨id, u, hTree, hEnd⟩ := h
  cases hEnd
  have hStart : (ofSource g.lexicon source.toList).coming.head.symbol ≠ .invalid :=
    fun hInvalid => by cases hInvalid
  rcases builds_parseRoot (buildsBy_engine hBuiltIn _ _) (Nat.zero_le _) hStart hTree with
    hRoot | hRoot
  · exact ⟨[], fun τ hMem => (by cases hMem), rfl, hRoot.trans (builds_checkEnd u _)⟩
  · refine ⟨[.token (ofSource g.lexicon source.toList).coming.head], fun τ hMem => ?_, rfl,
      hRoot.trans (builds_checkEnd u _)⟩
    cases List.mem_singleton.mp hMem
    rfl

/-- A character of which the lexer says that it starts no token has made one, which has been
consumed or comes next; and the messages with its range are the lexer's and those two. -/
theorem exists_token_of_character (hLexicon : g.lexicon.isBuiltIn = true) {source : List Char}
    {c : Bench} (hBuilds : g.Builds 0 ⟨ofSource g.lexicon source, []⟩ c)
    (hTiled : c.IsTiled g (ofSource g.lexicon source).coming n) {m : Message}
    (hMem : m ∈ c.session.diagnostics.toList) (hCode : m.code = .invalidCharacter) :
    (c.session.diagnostics.toList.filter fun m' => m'.range.span = m.range.span ∧
        m'.code ≠ .invalidParameter ∧ m'.code ≠ .trailingInput) = [m] ∧
      ∃ τ, τ.symbol = .invalid ∧ τ.range = m.range ∧
        (τ ∈ (ofSource g.lexicon source).coming.take n ∨ τ = c.session.coming.head) := by
  have hReads := g.lexicon.reads_lexemes source
  have hLiterals := Lexicon.isBuiltIn_of_mem_literals hLexicon
  have hOrdered := isOrdered_ofSource hLiterals source
  have hStart := Bench.IsTiled.empty g (ofSource g.lexicon source)
  -- the message is one of the lexer's, and the only one of those with its span
  have hLexical : m ∈ (ofSource g.lexicon source).log.filter (·.code = .invalidCharacter) := by
    rw [← Builds.filter_log hBuilds hOrdered.areInOrder_take hStart fun _ _ f _ _ _ =>
      decide_eq_false f.code_ne_invalidCharacter]
    exact List.mem_filter.mpr ⟨List.mem_append_left _ hMem, decide_eq_true hCode⟩
  have hOneOf := (List.mem_filter.mp hLexical).1
  rw [log_ofSource] at hOneOf
  obtain ⟨lexeme, hLexeme, hReported⟩ := List.mem_flatMap.mp hOneOf
  obtain ⟨hInvalid, hRange⟩ := hReads.character hLexicon lexeme hLexeme m hReported hCode
  obtain ⟨stop, -, hLaid⟩ := hReads.exists_areLaid hLexicon
  have hSolid := (hLaid.within m hOneOf).2.1
  rw [← hRange] at hSolid
  obtain ⟨k, hToken⟩ := Lexicon.exists_get_of_mem_lexemes hLexeme
  have hOnly : (c.session.log.filter fun m' => m'.range.span = m.range.span ∧
      m'.code ≠ .invalidParameter ∧ m'.code ≠ .trailingInput) = [m] := by
    rw [Builds.filter_log hBuilds hOrdered.areInOrder_take hStart, log_ofSource]
    · have hSome := congrArg (List.filter fun m' : Message =>
        m'.code ≠ .invalidParameter ∧ m'.code ≠ .trailingInput) (hLaid.filter_eq hOneOf)
      simpa [List.filter_filter, Bool.and_comm, Bool.and_assoc, hCode] using hSome
    · intro d j f range hHere hFault
      refine decide_eq_false fun ⟨hSpan, hParameter, hTrailing⟩ => ?_
      have hAt := hFault.code_eq (k := k) hOrdered hHere
        (Lexicon.holdsText_ofSource hLexicon source)
      rw [hToken, hRange] at hAt
      exact (hAt hInvalid (hRange ▸ hSolid) hSpan).elim hParameter hTrailing
  rw [log, List.filter_append, List.append_eq_singleton_iff] at hOnly
  rcases hOnly with ⟨hNone, -⟩ | ⟨hOnce, hLater⟩
  · have hThere := List.eq_nil_iff_forall_not_mem.mp hNone m
    exact absurd (List.mem_filter.mpr ⟨hMem, by simp [hCode]⟩) hThere
  refine ⟨hOnce, lexeme.token, hInvalid, hRange, ?_⟩
  by_cases hDone : k < n
  · left
    rw [← hToken]
    exact List.mem_of_getElem? (Stream'.getElem?_take hDone)
  right
  have hFound : c.session.coming.get (k - n) = lexeme.token := by
    rw [hTiled.coming, Stream'.get_drop, Nat.add_sub_of_le (Nat.le_of_not_lt hDone), hToken]
  have hUnfolds := Builds.unfolds hBuilds
  have hWhere := c.session.get_coming_mem (k - n)
  rw [hFound] at hWhere
  rcases List.mem_append.mp hWhere with hAhead | hBehind
  · exact eq_head_of_mem_ahead (hUnfolds.ahead (Nat.zero_le _)) hAhead
  rcases List.mem_append.mp hBehind with hUpcoming | hLast
  · -- a token that has not been looked at has not been reported
    obtain ⟨other, hOther, hSame⟩ := List.mem_map.mp hUpcoming
    rcases List.mem_cons.mp (hUnfolds.upcoming.subset hOther) with rfl | hFrom
    · rw [← hSame] at hInvalid
      cases hInvalid
    · obtain rfl := Lexicon.eq_of_token_eq hLiterals hLexeme hFrom hSolid hSame
      have hThere := List.eq_nil_iff_forall_not_mem.mp hLater m
      exact absurd (List.mem_filter.mpr
        ⟨List.mem_flatMap.mpr ⟨other, hOther, hReported⟩, by simp [hCode]⟩) hThere
  · have hEnding := congrArg (·.symbol) (List.mem_singleton.mp hLast)
    rw [(Builds.continues hBuilds).ending] at hEnding
    cases (hInvalid.symm.trans hEnding).trans (ending_ofSource g.lexicon source)

/-- A character that starts no token is reported once, and nothing else is reported just there but
that its node is no parameter list or that it is left over. Unless it is left over, an invalid node
of the tree covers it, if invalid tokens mean nothing to the grammar. -/
theorem reports_of_invalid_character (hBuiltIn : g.hasBuiltInParselets = true)
    (hLexicon : g.lexicon.isBuiltIn = true) (hEnd : g.options.enforceEnd = true) {source : String}
    {root : NodeId} (h : g.parseSession? source = some (root, t)) :
    ∀ m ∈ t.diagnostics.toList, m.code = .invalidCharacter →
      (t.diagnostics.toList.filter fun m' => m'.range.span = m.range.span ∧
        m'.code ≠ .invalidParameter ∧ m'.code ≠ .trailingInput) = [m] ∧
      (.invalid ∉ g.marks →
        (∀ m' ∈ t.diagnostics.toList, m'.code = .trailingInput →
          m'.range.span ≠ m.range.span) →
        ∃ x symbol, t.arena.Holds root x ∧ t.arena.kind? x = some (.invalid symbol) ∧
          m.range.span.IsWithin (t.arena.range x).span) := by
  intro m hMem hCode
  obtain ⟨front, hFront, hNodes, hBuilds⟩ := exists_builds_parseSession? hBuiltIn h
  have hOrdered := isOrdered_ofSource (Lexicon.isBuiltIn_of_mem_literals hLexicon) source.toList
  obtain ⟨n, -, hTiled⟩ := Builds.exists_isTiled hBuilds hOrdered.areInOrder_take
    (.empty g (ofSource g.lexicon source.toList))
  obtain ⟨hOnce, τ, hInvalid, hRange, hWhere⟩ :=
    exists_token_of_character hLexicon hBuilds hTiled hMem hCode
  refine ⟨hOnce, fun hUnmarked hNotLeft => ?_⟩
  rw [← hRange]
  rcases hWhere with hConsumed | hNext
  · rcases hTiled.tiles.exists_of_mem hConsumed with hToken | ⟨id, hNode, own, hOwn, hIn⟩
    · rcases List.mem_append.mp hToken with hSof | hRoot
      · cases hInvalid.symm.trans (hFront τ hSof)
      · cases List.mem_singleton.mp hRoot
    · rw [Piece.nodes_append, hNodes] at hNode
      obtain rfl := List.mem_singleton.mp hNode
      exact hOwn.shown hUnmarked τ hIn hInvalid
  · simp only [parseSession?, Option.bind_eq_bind, Option.bind_eq_some_iff, Prod.exists] at h
    obtain ⟨id, u, -, hChecked⟩ := h
    cases hChecked
    have hLeft : (g.checkEnd u).coming.head.symbol ≠ .eof := by
      rw [← hNext, hInvalid]
      exact fun hSame => by cases hSame
    obtain ⟨m', hReported, hTrailing, hThere⟩ := reported_of_leftover hEnd hLeft
    refine absurd ?_ (hNotLeft m' hReported hTrailing)
    rw [hThere, ← hNext, hRange]

end Grammar

namespace Sample

open Grammar

/-- A text with a character that starts no token in a call, and one behind a statement. -/
def strangeText : String := "f($, 1) @; y"

/-- Both characters of the text are reported once, and show in the tree. -/
theorem reports_of_invalid_character_strangeText :
    ∃ root t, operatorGrammar.parseSession? strangeText = some (root, t) ∧
      (t.diagnostics.toList.filter (·.code = .invalidCharacter)).length = 2 ∧
      ∀ m ∈ t.diagnostics.toList, m.code = .invalidCharacter →
        (t.diagnostics.toList.filter fun m' => m'.range.span = m.range.span ∧
          m'.code ≠ .invalidParameter ∧ m'.code ≠ .trailingInput) = [m] ∧
        ∃ x symbol, t.arena.Holds root x ∧ t.arena.kind? x = some (.invalid symbol) ∧
          m.range.span.IsWithin (t.arena.range x).span := by
  have hParsed : (operatorGrammar.parseSession? strangeText).any (fun r =>
      (r.2.diagnostics.toList.filter (·.code = .invalidCharacter)).length == 2 &&
        r.2.diagnostics.toList.all (·.code != .trailingInput)) = true := by
    decide +kernel
  obtain ⟨⟨root, t⟩, hResult, hShape⟩ := (Option.any_eq_true _ _).mp hParsed
  simp only [Bool.and_eq_true, beq_iff_eq, List.all_eq_true, bne_iff_ne] at hShape
  obtain ⟨hTwo, hNotLeft⟩ := hShape
  refine ⟨root, t, hResult, hTwo, fun m hMem hCode => ?_⟩
  obtain ⟨hOnce, hShown⟩ := reports_of_invalid_character (g := operatorGrammar)
    (by decide +kernel) (by decide +kernel) (by decide +kernel) hResult m hMem hCode
  exact ⟨hOnce, hShown (by decide +kernel) fun m' hMem' hTrailing =>
    absurd hTrailing (hNotLeft m' hMem')⟩

/-- Rules of names and functions alone. -/
def functionsOnly : Rules where
  lexical := [.ignore .blanks]
  declarations := Declaration.names ++
    [.lambda "->" .assignment, .block "#sof" "#eof" (some ";") false]

/-- The grammar of names and functions, in statements. -/
def functionGrammar : Grammar := (functionsOnly.grammar .standard).toOption.getD default

/-- The grammar of sums and products, where a source is one expression. -/
def sumGrammar : Grammar :=
  (arithmetic.grammar ⟨false, true, .skipToBoundary⟩).toOption.getD default

/-- Whether a grammar is the library's throughout, and reports what is left over. -/
def isPlain (g : Grammar) : Bool :=
  g.hasBuiltInParselets && g.lexicon.isBuiltIn && g.options.enforceEnd

/-- Two messages of one range, by their codes. -/
theorem exists_eq_pair_of_codes {l : List Message} {code code' : ErrorCode}
    (hCodes : l.map (·.code) = [code, code']) (hRange : ∀ m ∈ l, ∀ m' ∈ l, m'.range = m.range) :
    ∃ m m', l = [m, m'] ∧ m.code = code ∧ m'.code = code' ∧ m'.range = m.range := by
  obtain ⟨m, rest, rfl, hCode, hRest⟩ := List.map_eq_cons_iff.mp hCodes
  obtain ⟨m', rest, rfl, hCode', hNone⟩ := List.map_eq_cons_iff.mp hRest
  cases List.map_eq_nil_iff.mp hNone
  exact ⟨m, m', rfl, hCode, hCode', hRange m (by simp) m' (by simp)⟩

/-- The node of a character is refused as a parameter list, which is reported with its range; and a
character that is left over is reported with its range as well, and shows nowhere in the tree. -/
theorem second_report_of_invalid_character :
    (isPlain functionGrammar = true ∧
      ∃ root t, functionGrammar.parseSession? "$ -> x" = some (root, t) ∧
        ∃ m m', t.diagnostics.toList = [m, m'] ∧ m.code = .invalidCharacter ∧
          m'.code = .invalidParameter ∧ m'.range = m.range) ∧
    (isPlain sumGrammar = true ∧
      ∃ root t, sumGrammar.parseSession? "1 $" = some (root, t) ∧
        ∃ m m', t.diagnostics.toList = [m, m'] ∧ m.code = .invalidCharacter ∧
          m'.code = .trailingInput ∧ m'.range = m.range ∧
          ∀ x symbol, t.arena.kind? x ≠ some (.invalid symbol)) := by
  have hFunction : (functionGrammar.parseSession? "$ -> x").any (fun r =>
      r.2.diagnostics.toList.map (·.code) = [.invalidCharacter, .invalidParameter] ∧
      ∀ m ∈ r.2.diagnostics.toList, ∀ m' ∈ r.2.diagnostics.toList, m'.range = m.range) = true := by
    decide +kernel
  have hSum : (sumGrammar.parseSession? "1 $").any (fun r =>
      (r.2.diagnostics.toList.map (·.code) = [.invalidCharacter, .trailingInput] ∧
        ∀ m ∈ r.2.diagnostics.toList, ∀ m' ∈ r.2.diagnostics.toList, m'.range = m.range) ∧
      ∀ node ∈ r.2.arena.nodes.toList, node.kind.isInvalid = false) = true := by
    decide +kernel
  obtain ⟨⟨root, t⟩, hResult, hShape⟩ := (Option.any_eq_true _ _).mp hFunction
  obtain ⟨⟨root', t'⟩, hResult', hShape'⟩ := (Option.any_eq_true _ _).mp hSum
  obtain ⟨hCodes, hRange⟩ := of_decide_eq_true hShape
  obtain ⟨⟨hCodes', hRange'⟩, hValid⟩ := of_decide_eq_true hShape'
  obtain ⟨m, m', hMessages⟩ := exists_eq_pair_of_codes hCodes' hRange'
  refine ⟨⟨by decide +kernel, root, t, hResult, exists_eq_pair_of_codes hCodes hRange⟩,
    by decide +kernel, root', t', hResult', m, m', hMessages.1, hMessages.2.1, hMessages.2.2.1,
    hMessages.2.2.2, fun x symbol hKind => ?_⟩
  obtain ⟨node, hNode, hInvalid⟩ := Option.map_eq_some_iff.mp hKind
  have hThis := hValid node (Array.mem_toList_iff.mpr (Array.mem_of_getElem? hNode))
  rw [hInvalid] at hThis
  cases hThis

end Sample

end Precedence
