import Precedence.Proofs.Assembly.Characters
import Precedence.Proofs.Lexer.Positions

/-!
The positions that a parse records. Every range of a node or of a message starts and ends where some
token does, so its positions are those that the lexer recorded; only a bad escape stands within a
token, and its positions are counted on from the start of the token.
-/
namespace Precedence

open Session

/-! ### Bad escapes -/

section

variable {source : List Char} {token : Token}

/-- Reading on from the start of a token over its opening leads to the place of its text, which is
not within a line break. -/
theorem Token.IsPlaced.exists_payload (h : token.IsPlaced source) :
    ∃ upTo after, source = upTo ++ (token.payload source ++ after) ∧
      token.text.start = Text.byteLength upTo ∧
      token.range.start.advance (Span.slice ⟨token.range.span.start, token.text.start⟩ source) =
        Position.origin.advance upTo ∧
      (upTo.getLast? = some '\r' → (token.payload source ++ after).head? ≠ some '\n') := by
  obtain ⟨before, opening, content, after, hSource, hStart, hText, hOpening⟩ := h.text
  have hPayload : token.payload source = content := by
    rw [Token.payload, hText, hSource, Text.byteLength_append (before ++ opening), Span.slice,
      ← List.append_assoc, ← List.append_assoc, Text.slice?_append, Option.getD_some]
  have hSlice : Span.slice ⟨token.range.span.start, token.text.start⟩ source = opening := by
    rw [Span.slice, hStart, hText, Text.byteLength_append, hSource, ← List.append_assoc,
      Text.slice?_append, Option.getD_some]
  have hHere : token.range.start = Position.origin.advance before := by
    have hAgrees := h.range.start
    rw [Position.IsOf, hStart, hSource, Text.takeBytes?_byteLength_append,
      Option.map_some] at hAgrees
    exact (Option.some.inj hAgrees).symm
  have hWithin {x : Char} (hMem : x ∈ opening) : x ≠ '\n' ∧ x ≠ '\r' := by
    have hLine := List.all_eq_true.mp hOpening x hMem
    rwa [IgnoreRule.isWithinLine, Bool.and_eq_true, bne_iff_ne, bne_iff_ne] at hLine
  refine ⟨before ++ opening, after, ?_, ?_, ?_, fun hReturn hFeed => ?_⟩
  · rw [hPayload, List.append_assoc, hSource]
  · rw [hText]
  · rw [hSlice, hHere, Position.advance_advance]
    exact fun _ hFeed => (hWithin (List.mem_of_head? hFeed)).1 rfl
  · rw [hPayload] at hFeed
    rw [List.getLast?_append] at hReturn
    rcases Option.or_eq_some_iff.mp hReturn with hLast | ⟨hNone, hLast⟩
    · exact (hWithin (List.mem_of_getLast? hLast)).2 rfl
    · rw [List.getLast?_eq_none_iff.mp hNone, List.nil_append] at hSource
      apply h.whole
      rw [hStart, hSource]
      exact Text.splitsPair_of_append hLast hFeed

/-- The place of a bad escape in a token has the positions of its offsets, if the escape character
breaks no line. -/
theorem Engine.agreesWith_escapeRange {escape : Char} {error : InvalidEscape}
    (hPlaced : token.IsPlaced source) (hEscape : IgnoreRule.isWithinLine escape = true)
    (h : error ∈ (unescape escape (token.payload source)).errors) :
    (escapeRange source token (token.payload source) error).AgreesWith source := by
  obtain ⟨upTo, after, hSource, hText, hOpened, hWhole⟩ := hPlaced.exists_payload
  obtain ⟨early, late, hContent, hOffset, hHead⟩ := Escape.exists_of_mem_errors h
  rw [Nat.zero_add] at hOffset
  have hSlice : Span.slice ⟨0, error.offset⟩ (token.payload source) = early := by
    have hEarly := Text.slice?_append [] early (error.sequence ++ late)
    rw [Text.byteLength_nil, Nat.zero_add, List.nil_append] at hEarly
    rw [Span.slice, hOffset, hContent, hEarly, Option.getD_some]
  have hStart : (token.range.start.advance (Span.slice
      ⟨token.range.span.start, token.text.start⟩ source)).advance early =
        Position.origin.advance (upTo ++ early) := by
    rw [hOpened, Position.advance_advance]
    intro hReturn hFeed
    refine hWhole hReturn ?_
    rw [hContent, List.append_assoc, List.head?_append, hFeed, Option.some_or]
  have hStop : (Position.origin.advance (upTo ++ early)).advance error.sequence =
      Position.origin.advance (upTo ++ early ++ error.sequence) := by
    rw [Position.advance_advance]
    intro _ hFeed
    rw [Option.some.inj (hHead.symm.trans hFeed)] at hEscape
    cases hEscape
  have hPrefix : upTo ++ early ++ error.sequence <+: source := by
    refine ⟨late ++ after, ?_⟩
    rw [hSource, hContent]
    simp only [List.append_assoc]
  have hPlace : token.text.start + error.offset = Text.byteLength (upTo ++ early) := by
    rw [hText, hOffset, Text.byteLength_append]
  unfold escapeRange
  dsimp only
  rw [hSlice, hStart, hStop, hPlace, InvalidEscape.length, ← Text.byteLength_append]
  exact ⟨Position.isOf_of_prefix ((List.prefix_append _ _).trans hPrefix),
    Position.isOf_of_prefix hPrefix⟩

end

/-! ### Sessions -/

namespace Session

/-- The tokens of a session, its nodes and everything that is or will be reported have the positions
of their offsets in its source. -/
structure IsPlaced (s : Session) (source : List Char) : Prop where
  coming (i : Nat) : (s.coming.get i).IsPlaced source
  previous : s.previous.IsPlaced source
  nodes (id : NodeId) : (s.arena.range id).AgreesWith source
  log : ∀ m ∈ s.log, m.range.AgreesWith source
  source : s.source = source

namespace IsPlaced

variable {s : Session} {source : List Char}

theorem peeked (h : s.IsPlaced source) : s.peeked.IsPlaced source := by
  constructor
  · rw [coming_peeked]
    exact h.coming
  · rw [previous_peeked]
    exact h.previous
  · rw [arena_peeked]
    exact h.nodes
  · rw [log_peeked]
    exact h.log
  · rw [source_peeked]
    exact h.source

theorem consume (h : s.IsPlaced source) : s.consume.2.IsPlaced source := by
  constructor
  · intro i
    rw [coming_consume]
    exact h.coming (i + 1)
  · rw [previous_consume]
    exact h.coming 0
  · rw [arena_consume]
    exact h.nodes
  · rw [log_consume]
    exact h.log
  · rw [source_consume]
    exact h.source

theorem report (h : s.IsPlaced source) {m : Message} (hRange : m.range.AgreesWith source) :
    (s.report m).2.IsPlaced source := by
  refine ⟨h.coming, h.previous, h.nodes, fun other hMem => ?_, h.source⟩
  rw [log_report, List.mem_append, List.mem_cons] at hMem
  rcases hMem with hBefore | rfl | hLater
  · exact h.log other (List.mem_append_left _ hBefore)
  · exact hRange
  · exact h.log other (List.mem_append_right _ hLater)

/-- A change to the arena alone, after which the ranges of all nodes agree. -/
theorem of_arena (h : s.IsPlaced source) (arena : Arena)
    (hNodes : ∀ id, (arena.range id).AgreesWith source) : IsPlaced { s with arena } source :=
  ⟨h.coming, h.previous, hNodes, h.log, h.source⟩

theorem alloc (h : s.IsPlaced source) (kind : NodeKind) {range : SourceRange}
    (hRange : range.AgreesWith source) : (s.alloc kind range).2.IsPlaced source := by
  refine h.of_arena (s.arena.alloc kind range).2 fun id => ?_
  rw [Arena.range_alloc]
  split
  · exact hRange
  · exact h.nodes id

theorem attach (h : s.IsPlaced source) (id : NodeId) (message : MessageId) :
    (s.attach id message).IsPlaced source := by
  refine h.of_arena (s.arena.attach id message) fun other => ?_
  rw [Arena.range_attach]
  exact h.nodes other

theorem setRange (h : s.IsPlaced source) (id : NodeId) {range : SourceRange}
    (hRange : range.AgreesWith source) : (s.setRange id range).IsPlaced source := by
  refine h.of_arena (s.arena.setRange id range) fun other => ?_
  by_cases hSame : other = id
  · subst hSame
    by_cases hThere : other.index < s.arena.size
    · rw [s.arena.range_setRange_self range hThere]
      exact hRange
    · have hNone := (s.arena.kind?_setRange other other range).trans
        (s.arena.kind?_eq_none (Nat.le_of_not_lt hThere))
      rw [Arena.range_of_kind?_eq_none hNone]
      exact SourceRange.agreesWith_synthetic source
  · rw [s.arena.range_setRange_of_ne range hSame]
    exact h.nodes other

theorem rangeFrom (h : s.IsPlaced source) {start : SourceRange} (hStart : start.AgreesWith source) :
    (s.rangeFrom start).AgreesWith source :=
  hStart.merge h.previous.range

end IsPlaced

/-- So is a session that is opened on a source whose tokens are. -/
theorem isPlaced_ofSource {lx : Lexicon} {source : List Char}
    (h : ∀ lexeme ∈ lx.lexemes source, lexeme.token.IsPlaced source ∧
      ∀ m ∈ lexeme.messages, m.range.AgreesWith source) :
    (ofSource lx source).IsPlaced source := by
  obtain ⟨body, last, hAll, -, -⟩ := lx.exists_lexemes_eq source
  have hStart : (Token.empty .sof 0 .origin).IsPlaced source :=
    (Cursor.isPlaced_ofSource source).isPlaced_emptyToken (Text.not_splitsPair_zero source) .sof
  have hTokens : ∀ τ ∈ body.map (·.token) ++ [last.token], τ.IsPlaced source := by
    rw [← List.map_singleton, ← List.map_append, ← hAll]
    exact List.forall_mem_map.mpr fun lexeme hMem => (h lexeme hMem).1
  refine ⟨fun i => ?_, hStart, fun id => ?_, fun m hMem => ?_, rfl⟩
  · rw [coming_ofSource hAll]
    cases i with
    | zero => exact hStart
    | succ i => exact hTokens _ (get_append_const_mem _ _ i)
  · rw [Arena.range_of_kind?_eq_none (Arena.kind?_eq_none _ (Nat.zero_le _))]
    exact SourceRange.agreesWith_synthetic source
  · obtain ⟨lexeme, hLexeme, hFound⟩ := List.mem_flatMap.mp (log_ofSource lx source ▸ hMem)
    exact (h lexeme hLexeme).2 m hFound

end Session

/-! ### Acts -/

/-- Whether the escape character of a string, if there is one, breaks no line. -/
def PrefixParselet.escapesWithinLine : PrefixParselet → Bool
  | .string (some escape) => IgnoreRule.isWithinLine escape
  | _ => true

/-- Everything that a bench holds has the positions of its offsets in a source. -/
structure Bench.IsPlaced (b : Bench) (source : List Char) : Prop where
  session : b.session.IsPlaced source
  tokens {τ : Token} : .token τ ∈ b.pieces → τ.range.AgreesWith source

namespace Bench.IsPlaced

variable {s t : Session} {p q : List Piece} {source : List Char}

theorem range (h : IsPlaced ⟨s, p⟩ source) {piece : Piece} (hMem : piece ∈ p) :
    (piece.range s.arena).AgreesWith source := by
  cases piece with
  | token τ => exact h.tokens hMem
  | node id => exact h.session.nodes id

/-- The last pieces may be taken away for a node. -/
theorem replace (h : IsPlaced ⟨s, p ++ q⟩ source) (hSession : t.IsPlaced source) (id : NodeId) :
    IsPlaced ⟨t, p ++ [.node id]⟩ source := by
  refine ⟨hSession, fun hMem => h.tokens (List.mem_append_left _ ?_)⟩
  rcases List.mem_append.mp hMem with hFront | hNode
  · exact hFront
  · cases List.mem_singleton.mp hNode

end Bench.IsPlaced

namespace Grammar

variable {g : Grammar} {floor : Nat} {b c : Bench} {source : List Char}

/-- A bad escape is reported where it stands. -/
theorem FindsEscape.agreesWith {s : Session} {range : SourceRange} (h : g.FindsEscape s range)
    (hEscapes : ∀ entry ∈ g.prefixes, entry.2.escapesWithinLine = true)
    (hPlaced : s.IsPlaced source) : range.AgreesWith source := by
  obtain ⟨escape, hParselet, error, hError, rfl⟩ := h
  have hWithin := hEscapes _ (mem_of_prefixFor? hParselet)
  rw [payload, hPlaced.source] at hError ⊢
  exact Engine.agreesWith_escapeRange hPlaced.previous hWithin hError

/-- Whatever is done at the bench, positions agree with offsets. -/
theorem Act.isPlaced (h : g.Act floor b c)
    (hEscapes : ∀ entry ∈ g.prefixes, entry.2.escapesWithinLine = true)
    (hPlaced : b.IsPlaced source) : c.IsPlaced source := by
  have hSession := hPlaced.session
  cases h with
  | look s p => exact ⟨hSession.peeked, hPlaced.tokens⟩
  | consume s p =>
      refine ⟨hSession.consume, fun hMem => ?_⟩
      rcases List.mem_append.mp hMem with hOld | hNext
      · exact hPlaced.tokens hOld
      · cases List.mem_singleton.mp hNext
        exact (hSession.coming 0).range
  | fault s p hNext => exact ⟨hSession.report (hSession.coming 0).range, hPlaced.tokens⟩
  | escape s p hValid hSome hStart hStop hFound =>
      have hRange := hFound.agreesWith hEscapes hSession
      exact ⟨(hSession.report hRange).attach _ _, hPlaced.tokens⟩
  | @parameters s p id left hLists =>
      exact ⟨(hSession.report (hSession.nodes left)).attach _ _, hPlaced.tokens⟩
  | intern s p text => exact ⟨hSession.of_arena _ hSession.nodes, hPlaced.tokens⟩
  | make s p hGathers hValid hMeans hRange =>
      have hFirst := hPlaced.range (List.mem_append_right p List.mem_cons_self)
      refine hPlaced.replace (hSession.alloc _ ?_) _
      rcases hRange with rfl | ⟨-, rfl⟩
      · exact hSession.rangeFrom hFirst
      · exact hFirst
  | ungroup s p hMeans =>
      have hOpening := hPlaced.tokens (List.mem_append_right p List.mem_cons_self)
      exact hPlaced.replace (hSession.setRange _ (hSession.rangeFrom hOpening)) _
  | reject s p hValid =>
      have hPrevious := hSession.previous.range
      exact hPlaced.replace (((hSession.report hPrevious).alloc _ hPrevious).attach _ _) _
  | pass s p hReason =>
      have hFirst := hPlaced.tokens (List.mem_append_right p List.mem_cons_self)
      exact hPlaced.replace (hSession.alloc _ (hSession.rangeFrom hFirst)) _

theorem Builds.isPlaced (h : g.Builds floor b c)
    (hEscapes : ∀ entry ∈ g.prefixes, entry.2.escapesWithinLine = true)
    (hPlaced : b.IsPlaced source) : c.IsPlaced source := by
  induction h with
  | refl => exact hPlaced
  | tail _ hLast ih => exact hLast.isPlaced hEscapes ih

/-- Whether what strings and comments start with breaks no line, and no escape character does. -/
def delimitsWithinLine (g : Grammar) : Bool :=
  g.lexicon.opensWithinLine && g.prefixes.all (·.2.escapesWithinLine)

/-- Recorded positions agree with offsets. If no character that starts no token breaks a line and no
token starts or ends within a line break, both ends of the range of every node and of every message
are places of the source, and reading the source up to there leads to the positions recorded. -/
theorem positions_of_parse? (hBuiltIn : g.hasBuiltInParselets = true)
    (hLexicon : g.lexicon.isBuiltIn = true) (hDelimits : g.delimitsWithinLine = true)
    {filename source : String}
    (hInvalid : ∀ lexeme ∈ g.lexicon.lexemes source.toList, lexeme.token.symbol = .invalid →
      (lexeme.token.payload source.toList).all IgnoreRule.isWithinLine = true)
    (hWhole : ∀ lexeme ∈ g.lexicon.lexemes source.toList,
      lexeme.token.range.IsWhole source.toList)
    {p : Parsed} (h : g.parse? filename source = some p) :
    (∀ id, (p.arena.range id).AgreesWith source.toList) ∧
      ∀ m ∈ p.document.diagnostics.toList, m.range.AgreesWith source.toList := by
  obtain ⟨⟨root, t⟩, hSession, rfl⟩ := Option.map_eq_some_iff.mp h
  obtain ⟨hOpens, hEscapes⟩ := (Bool.and_eq_true _ _).mp hDelimits
  have hTokens := (g.lexicon.reads_lexemes source.toList).isPlaced hLexicon hOpens
    (Cursor.isPlaced_ofSource source.toList) hInvalid hWhole
  obtain ⟨front, -, -, hBuilds⟩ := exists_builds_parseSession? hBuiltIn hSession
  have hEnd := Builds.isPlaced hBuilds (List.all_eq_true.mp hEscapes)
    ⟨isPlaced_ofSource hTokens, fun hMem => (by cases hMem)⟩
  exact ⟨hEnd.session.nodes, fun m hMem => hEnd.session.log m (List.mem_append_left _ hMem)⟩

end Grammar

namespace Sample

open Grammar

/-- A text with line breaks of every kind, two of them in a string with bad escapes. -/
def brokenLines : String := "é\r\n= 'ü\\q\r\n€\\u{zz}' +\r$ ; x y\n /* 'é"

/-- Its positions agree with its offsets, those of the bad escapes and of the open comment too. -/
theorem positions_of_parse?_brokenLines :
    ∃ p, operatorGrammar.parse? "lines" brokenLines = some p ∧
      p.document.diagnostics.toList.map (·.range.start) =
        [⟨2, 5⟩, ⟨3, 2⟩, ⟨4, 1⟩, ⟨4, 7⟩, ⟨5, 2⟩] ∧
      (∀ id, (p.arena.range id).AgreesWith brokenLines.toList) ∧
      ∀ m ∈ p.document.diagnostics.toList, m.range.AgreesWith brokenLines.toList := by
  have hParsed : (operatorGrammar.parse? "lines" brokenLines).any (fun p =>
      p.document.diagnostics.toList.map (·.range.start) =
        [⟨2, 5⟩, ⟨3, 2⟩, ⟨4, 1⟩, ⟨4, 7⟩, ⟨5, 2⟩]) = true := by decide +kernel
  obtain ⟨p, hResult, hReported⟩ := (Option.any_eq_true _ _).mp hParsed
  exact ⟨p, hResult, of_decide_eq_true hReported, positions_of_parse? (by decide +kernel)
    (by decide +kernel) (by decide +kernel) (by decide +kernel) (by decide +kernel) hResult⟩

end Sample

end Precedence
