import Precedence.Proofs.Engine.Termination
import Precedence.Proofs.Grammar.Declared
import Precedence.Proofs.Grammar.Orderly
import Precedence.Proofs.Lexer.Numbers
import Precedence.Proofs.Lexer.Tokens

/-!
A parse without errors is complete. Where the parser makes an invalid node without a word, somebody
else has spoken: the lexer about a character that starts no token or a number without digits, the
parser itself about the tokens that it passes over. What ties the two together is an invariant of
runs: such a token has been reported as soon as it has been looked at.
-/
namespace Precedence

open Session Relation

/-- Whether a rule for literals reads numbers with the given separators, if it reads numbers. -/
def LiteralRule.agrees (separators : Separators) : LiteralRule → Bool
  | .number format => format.separators == separators
  | _ => true

/-- Whether a parselet for numbers stands at the kind of numbers, and has separators that are
neither letters nor digits and are those of the lexicon. -/
def PrefixParselet.agrees (lx : Lexicon) (symbol : Symbol) : PrefixParselet → Bool
  | .number separators =>
    symbol == .number && separators.areMarks && lx.literals.all (·.agrees separators)
  | _ => true

namespace Grammar

/-- What makes invalid nodes without a word has been reported where it has been looked at, and will
be where it has not; and every invalid node that there is has been reported. -/
structure Announces (g : Grammar) (s : Session) : Prop where
  ahead : ∀ token ∈ s.ahead, g.IsSilent s.source token → s.diagnostics.hasErrors = true
  upcoming : ∀ lexeme ∈ s.upcoming, g.IsSilent s.source lexeme.token →
    ∃ m ∈ lexeme.messages, m.isError = true
  ending : ¬g.IsSilent s.source s.ending
  previous : g.IsSilent s.source s.previous → s.diagnostics.hasErrors = true
  nodes : ∀ id kind, s.arena.kind? id = some kind → kind.isInvalid = true →
    s.diagnostics.hasErrors = true

variable {g : Grammar} {s t : Session}

/-! ### Looking at tokens and consuming them -/

theorem Announces.reveal (h : g.Announces s) : g.Announces s.reveal := by
  obtain ⟨hAhead, hUpcoming, hEnding, hPrevious, hNodes⟩ := h
  unfold Session.reveal
  split
  · refine ⟨List.forall_mem_append.mpr ⟨hAhead, List.forall_mem_singleton.mpr ?_⟩, hUpcoming,
      hEnding, hPrevious, hNodes⟩
    exact fun hSilent => absurd hSilent hEnding
  · next lexeme rest hLexemes =>
    rw [hLexemes] at hUpcoming
    obtain ⟨hLexeme, hRest⟩ := List.forall_mem_cons.mp hUpcoming
    have hGrows : s.diagnostics.toList <+: (s.diagnostics.append lexeme.messages).toList := by
      simp [Diagnostics.toList, Diagnostics.append]
    have hStays := Diagnostics.hasErrors_of_prefix hGrows
    refine ⟨List.forall_mem_append.mpr
      ⟨fun token hMem hSilent => hStays (hAhead token hMem hSilent),
        List.forall_mem_singleton.mpr fun hSilent => ?_⟩, hRest, hEnding,
      fun hSilent => hStays (hPrevious hSilent),
      fun id kind hKind hInvalid => hStays (hNodes id kind hKind hInvalid)⟩
    obtain ⟨m, hMem, hError⟩ := hLexeme hSilent
    rw [Diagnostics.hasErrors_iff]
    refine ⟨m, ?_, hError⟩
    simp [Diagnostics.toList, Diagnostics.append, hMem]

theorem Announces.revealMany (h : g.Announces s) (n : Nat) : g.Announces (s.revealMany n) := by
  induction n generalizing s with
  | zero => exact h
  | succ n ih => exact ih h.reveal

theorem Announces.peeked (h : g.Announces s) : g.Announces s.peeked := h.revealMany _

/-- A silent token that comes next has been reported once it has been looked at. -/
theorem Announces.hasErrors_peeked (h : g.Announces s)
    (hSilent : g.IsSilent s.source s.coming.head) :
    s.peeked.diagnostics.hasErrors = true := by
  obtain ⟨rest, hAhead⟩ := s.ahead_peeked
  apply h.peeked.ahead s.coming.head
  · rw [hAhead]
    exact List.mem_cons_self
  · rw [source_peeked]
    exact hSilent

theorem Announces.consume (h : g.Announces s) : g.Announces s.consume.2 := by
  have hReported := h.hasErrors_peeked
  obtain ⟨hAhead, hUpcoming, hEnding, -, hNodes⟩ := h.peeked
  rw [consume_eq]
  refine ⟨fun token hMem => hAhead token (List.mem_of_mem_drop hMem), hUpcoming, hEnding, ?_,
    hNodes⟩
  intro hSilent
  apply hReported
  rw [← source_peeked]
  exact hSilent

theorem Announces.moves (h : g.Announces s) (hMoves : s.Moves t) : g.Announces t := by
  induction hMoves with
  | refl => exact h
  | tail _ hLast ih =>
      cases hLast with
      | look => exact ih.peeked
      | consume => exact ih.consume

/-! ### Steps -/

/-- Once there is an error, only the tokens that have not been looked at matter. -/
theorem Announces.of_hasErrors (h : g.Announces s) (hSource : t.source = s.source)
    (hUpcoming : t.upcoming = s.upcoming) (hEnding : t.ending = s.ending)
    (hErrors : t.diagnostics.hasErrors = true) : g.Announces t := by
  refine ⟨fun _ _ _ => hErrors, ?_, ?_, fun _ => hErrors, fun _ _ _ _ => hErrors⟩
  · rw [hSource, hUpcoming]
    exact h.upcoming
  · rw [hSource, hEnding]
    exact h.ending

theorem Announces.alloc (h : g.Announces s) {kind : NodeKind} (hValid : kind.isInvalid = false)
    (range : SourceRange) : g.Announces (s.alloc kind range).2 := by
  refine ⟨h.ahead, h.upcoming, h.ending, h.previous, ?_⟩
  intro id other hKind hInvalid
  change (s.arena.alloc kind range).2.kind? id = some other at hKind
  rw [Arena.kind?_alloc] at hKind
  split at hKind
  · cases hKind
    rw [hValid] at hInvalid
    cases hInvalid
  · exact h.nodes id other hKind hInvalid

theorem Announces.step (h : g.Announces s) (hStep : g.Step s t) : g.Announces t := by
  cases hStep with
  | move hMove => exact h.moves (.single hMove)
  | fault f range => exact h.of_hasErrors rfl rfl rfl (hasErrors_fault _ _ _ _)
  | alloc hValid range => exact h.alloc hValid range
  | name token =>
      have hNamed : g.Announces { s with
          arena := (s.arena.internName (String.ofList (s.payload token))).2 } :=
        ⟨h.ahead, h.upcoming, h.ending, h.previous, h.nodes⟩
      exact hNamed.alloc rfl token.range
  | setRange id range =>
      refine ⟨h.ahead, h.upcoming, h.ending, h.previous,
        fun other kind hKind => h.nodes other kind ?_⟩
      exact (s.arena.kind?_setRange id other range).symm.trans hKind
  | flag f range id => exact h.of_hasErrors rfl rfl rfl (hasErrors_fault _ _ _ _)
  | reject f => exact h.of_hasErrors rfl rfl rfl (hasErrors_fault _ _ _ _)
  -- nothing is reported here, since the token was when it was looked at
  | spare hSilent => exact h.of_hasErrors rfl rfl rfl (h.previous hSilent)
  | passOver hReason hMoves range =>
      have hLooked : s.peeked.diagnostics.hasErrors = true := by
        rcases hReason with hErrors | hInvalid
        · exact Diagnostics.hasErrors_of_prefix s.continues_peeked.reported hErrors
        · exact h.hasErrors_peeked (.inl hInvalid)
      have hErrors := Diagnostics.hasErrors_of_prefix (Moves.continues hMoves).reported hLooked
      exact (h.peeked.moves hMoves).of_hasErrors rfl rfl rfl hErrors

theorem Announces.run (h : g.Announces s) (hRun : g.Run s t) : g.Announces t := by
  induction hRun with
  | refl => exact h
  | tail _ hLast ih => exact ih.step hLast

/-! ### The start of a parse -/

/-- Whether the lexicon and the parselets of a grammar read the same numbers. -/
def numbersAgree (g : Grammar) : Bool :=
  g.prefixes.all fun entry => entry.2.agrees g.lexicon entry.1

section

variable (hNumbers : g.numbersAgree = true)

include hNumbers

theorem agrees_of_prefixFor? {symbol : Symbol} {separators : Separators}
    (h : g.prefixFor? symbol = some (.number separators)) :
    symbol = .number ∧ separators.areMarks = true ∧
      ∀ format, .number format ∈ g.lexicon.literals → format.separators = separators := by
  have hEntry := List.all_eq_true.mp hNumbers _ (mem_of_prefixFor? h)
  simp only [PrefixParselet.agrees, Bool.and_eq_true, beq_iff_eq, List.all_eq_true] at hEntry
  obtain ⟨⟨hSymbol, hMarks⟩, hLiterals⟩ := hEntry
  refine ⟨hSymbol, hMarks, fun format hMem => ?_⟩
  simpa [LiteralRule.agrees] using hLiterals _ hMem

/-- Only invalid tokens and numbers are silent. -/
theorem not_isSilent {source : List Char} {token : Token} (hInvalid : token.symbol ≠ .invalid)
    (hNumber : token.symbol ≠ .number) : ¬g.IsSilent source token := by
  rintro (hSymbol | ⟨separators, hParselet, -⟩)
  · exact hInvalid hSymbol
  · exact hNumber (agrees_of_prefixFor? hNumbers hParselet).1

/-- The lexer reports every silent token that it finds. -/
theorem reported_of_isSilent (hLexicon : g.lexicon.IsOrdinary) {source : List Char} {c : Cursor}
    {lexeme : Lexeme} (h : g.lexicon.Finds source c lexeme)
    (hSilent : g.IsSilent source lexeme.token) : ∃ m ∈ lexeme.messages, m.isError = true := by
  rw [h.token] at hSilent
  cases hLexicon.recognises c with
  | number format hMem hStarts hToken hMessages =>
      rcases hSilent with hInvalid | ⟨separators, hParselet, hDigits⟩
      · rw [hToken] at hInvalid
        cases hInvalid
      · obtain ⟨-, hMarks, hSeparators⟩ := agrees_of_prefixFor? hNumbers hParselet
        obtain rfl := hSeparators format hMem
        have hPayload : (LiteralRule.readNumber format c).token.payload source =
            c.rest.take (format.extent c.rest).width := h.isIn.payload_tokenTo _ _
        rw [hToken, hPayload] at hDigits
        obtain ⟨radix, hMissing⟩ :=
          Option.isSome_iff_exists.mp (NumberFormat.missing_of_noDigits hMarks hDigits)
        have hReported : ∃ m ∈ (LiteralRule.readNumber format c).messages, m.isError = true := by
          simp only [LiteralRule.readNumber, hMissing]
          exact ⟨_, List.mem_singleton_self _, rfl⟩
        obtain ⟨m, hMem, hError⟩ := hReported
        exact ⟨m, h.messages (hMessages hMem), hError⟩
  | other hEnd hNumber hInvalid => exact absurd hSilent (not_isSilent hNumbers hInvalid hNumber)
  | invalid _ hReported =>
      obtain ⟨m, hMem, hError⟩ := hReported
      exact ⟨m, h.messages hMem, hError⟩

theorem announces_ofSource (hLexicon : g.lexicon.IsOrdinary) (source : List Char) :
    g.Announces (.ofSource g.lexicon source) := by
  obtain ⟨body, last, hAll, hLast, hBody⟩ := g.lexicon.exists_lexemes_eq source
  have hStart : ¬g.IsSilent source (.empty .sof 0 .origin) := 
    not_isSilent hNumbers (by decide) (by decide)
  have hEnd : ¬g.IsSilent source last.token := by
    apply not_isSilent hNumbers
    · rw [hLast]
      decide
    · rw [hLast]
      decide
  refine ⟨List.forall_mem_nil _, ?_, ?_, fun hSilent => absurd hSilent hStart, ?_⟩
  · simp only [ofSource, ofLexemes, hAll]
    refine List.forall_mem_cons.mpr ⟨fun hSilent => absurd hSilent hStart,
      List.forall_mem_append.mpr ⟨?_,
        List.forall_mem_singleton.mpr fun hSilent => absurd hSilent hEnd⟩⟩
    intro lexeme hMem hSilent
    obtain ⟨c, hFound⟩ := hBody lexeme hMem
    exact reported_of_isSilent hNumbers hLexicon hFound hSilent
  · simp only [ofSource, ofLexemes, hAll, List.getLast?_concat, Option.getD_some]
    exact hEnd
  · intro id kind hKind
    cases hKind

end

/-- Spellings that are not marked as abstract kinds are of symbols that are not predefined. -/
theorem SpellsNames.isPredefined_eq_false (h : g.SpellsNames) {p : Punctuator}
    (hMem : p ∈ g.lexicon.punctuators.entries) (hMark : p.spelling.head? ≠ some '#') :
    p.symbol.isPredefined = false := by
  rw [Symbol.isPredefined, decide_eq_false_iff_not]
  intro hLess
  have hMarked : ∀ name ∈ Symbol.predefinedNames, name.toList.head? = some '#' := by decide
  have hName := g.symbols.name_eq_of_lt hLess
  rw [SymbolTable.name, h p hMem, Option.getD_some] at hName
  apply hMark
  rw [← hMarked _ (List.getElem_mem hLess), ← hName, Punctuator.text, String.toList_ofList]

/-- The lexicon that rules declare with the library's literals is an ordinary one. -/
theorem isOrdinary_of_rules {rules : Rules} {options : Options}
    (hRules : rules.grammar options = .ok g)
    (hLiterals : ∀ rule ∈ g.lexicon.literals, rule.isBuiltIn = true)
    (hSpellings : ∀ p ∈ g.lexicon.punctuators.entries, p.spelling.head? ≠ some '#') :
    g.lexicon.IsOrdinary :=
  ⟨hLiterals, fun p hMem =>
    (spellsNames_of_rules hRules).isPredefined_eq_false hMem (hSpellings p hMem)⟩

/-! ### The end of a parse -/

/-- Without an error, nothing is left over where that would be reported. -/
theorem head_checkEnd (hEnd : g.options.enforceEnd = true)
    (hClean : (g.checkEnd s).diagnostics.hasErrors = false) :
    (g.checkEnd s).coming.head.symbol = .eof := by
  unfold checkEnd at hClean ⊢
  rw [if_pos hEnd, lookahead_zero] at hClean ⊢
  dsimp only at hClean ⊢
  split
  · next hHead => rwa [coming_peeked]
  · next hHead =>
    rw [if_neg hHead, hasErrors_fault] at hClean
    cases hClean

/-- All tokens of a source have been consumed when the end comes next. -/
theorem exists_consumed (hLexicon : g.lexicon.IsOrdinary) {source : List Char}
    (hContinues : (Session.ofSource g.lexicon source).Continues s)
    (hHead : s.coming.head.symbol = .eof) :
    ∃ consumed : List Token, (Session.ofSource g.lexicon source).coming = consumed ++ₛ s.coming ∧
      Token.empty .sof 0 .origin :: (g.lexicon.lexemes source).dropLast.map (·.token) <+:
        consumed := by
  obtain ⟨body, last, hAll, hLast, hBody⟩ := g.lexicon.exists_lexemes_eq source
  rw [hAll, List.dropLast_concat]
  generalize hTokens : Token.empty .sof 0 .origin :: body.map (·.token) = tokens
  have hOpen : ∀ token ∈ tokens, token.symbol ≠ .eof := by
    rw [← hTokens]
    refine List.forall_mem_cons.mpr ⟨by decide, List.forall_mem_map.mpr fun lexeme hMem => ?_⟩
    obtain ⟨c, hFound⟩ := hBody lexeme hMem
    rw [hFound.token]
    exact (hLexicon.recognises c).symbol_ne_eof
  have hComing := coming_ofSource hAll
  rw [← Stream'.cons_append_stream, hTokens] at hComing
  obtain ⟨n, hDropped⟩ := hContinues.coming
  have hLength : tokens.length ≤ n := by
    apply Nat.le_of_not_lt
    intro hLess
    rw [hDropped, Stream'.head_drop, hComing, Stream'.get_append_left _ _ _ hLess] at hHead
    exact hOpen _ (List.getElem_mem hLess) hHead
  refine ⟨(Session.ofSource g.lexicon source).coming.take n, ?_, ?_⟩
  · rw [hDropped, Stream'.append_take_drop]
  · have hFront :=
      Stream'.take_prefix_take_left _ _ (Session.ofSource g.lexicon source).coming hLength
    rwa [hComing, Stream'.take_append_of_le_length _ _ _ (Nat.le_refl _), List.take_length,
      ← hComing] at hFront

/-- A parse without errors is a complete parse. -/
theorem complete_of_clean {rules : Rules} {options : Options}
    (hRules : rules.grammar options = .ok g) (hBuiltIn : g.hasBuiltInParselets = true)
    (hLiterals : ∀ rule ∈ g.lexicon.literals, rule.isBuiltIn = true)
    (hSpellings : ∀ p ∈ g.lexicon.punctuators.entries, p.spelling.head? ≠ some '#')
    (hNumbers : g.numbersAgree = true) (hEnd : g.options.enforceEnd = true) {source : String}
    {root : NodeId} (h : g.parseSession? source = some (root, s))
    (hClean : s.diagnostics.hasErrors = false) :
    (∀ id kind, s.arena.kind? id = some kind → kind.isInvalid = false) ∧
    ∃ consumed : List Token,
      (Session.ofSource g.lexicon source.toList).coming = consumed ++ₛ s.coming ∧
      Token.empty .sof 0 .origin ::
        (g.lexicon.lexemes source.toList).dropLast.map (·.token) <+: consumed := by
  have hOrdinary := isOrdinary_of_rules hRules hLiterals hSpellings
  have hRun := run_parseSession? hBuiltIn h
  have hAnnounces := (announces_ofSource hNumbers hOrdinary source.toList).run hRun
  constructor
  · intro id kind hKind
    cases hInvalid : kind.isInvalid with
    | false => rfl
    | true =>
        rw [hAnnounces.nodes id kind hKind hInvalid] at hClean
        cases hClean
  · refine exists_consumed hOrdinary (Run.continues hRun) ?_
    simp only [parseSession?, Option.bind_eq_bind, Option.bind_eq_some_iff, Prod.exists] at h
    obtain ⟨id, u, -, hChecked⟩ := h
    cases hChecked
    exact head_checkEnd hEnd hClean

end Grammar

namespace Sample

/-- A text with calls, a condition, a number to base sixteen and a comment. -/
def operatorText : String := "\x7b x = f(a, 0x1f) ? -b! : 'it'; \x7d // end"

/-- The text is parsed without an error, so its parse is complete. -/
theorem complete_of_clean_operatorText :
    ∃ root s, operatorGrammar.parseSession? operatorText = some (root, s) ∧
      s.diagnostics.hasErrors = false ∧
      (∀ id kind, s.arena.kind? id = some kind → kind.isInvalid = false) ∧
      ∃ consumed : List Token,
        (Session.ofSource operatorGrammar.lexicon operatorText.toList).coming =
          consumed ++ₛ s.coming ∧
        Token.empty .sof 0 .origin ::
          (operatorGrammar.lexicon.lexemes operatorText.toList).dropLast.map (·.token) <+:
            consumed := by
  have hParsed : (operatorGrammar.parseSession? operatorText).any
      (·.2.diagnostics.hasErrors == false) = true := by
    decide +kernel
  obtain ⟨⟨root, s⟩, hResult, hClean⟩ := (Option.any_eq_true _ _).mp hParsed
  have hClean := beq_iff_eq.mp hClean
  have hRules : operators.grammar .standard = .ok operatorGrammar :=
    Except.eq_ok_getD (by decide +kernel) default
  exact ⟨root, s, hResult, hClean,
    Grammar.complete_of_clean hRules (by decide +kernel) (by decide +kernel) (by decide +kernel)
      (by decide +kernel) (by decide +kernel) hResult hClean⟩

end Sample

end Precedence
