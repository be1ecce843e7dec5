import Precedence.Proofs.Grammar.Declared
import Precedence.Proofs.Grammar.Orderly
import Precedence.Proofs.Lexer.Iteration
import Precedence.Proofs.Lexer.Partition

/-!
The tokens that mark a place and are no text: the start of the input, its end, and a character that
starts no token. However a lexer is used, it finds the start once and first, the end only where
nothing is left, and a character that starts no token only together with a message about it. This is
so as long as the name of none of the three kinds was registered as a spelling.
-/
namespace Precedence

/-- The kinds of tokens that are found without a rule. -/
def Symbol.sentinels : List Symbol := [.sof, .eof, .invalid]

/-- A token marks the end of its source only there, and a character that starts no token only if
that was reported. -/
structure Token.IsGenuine (source : List Char) (d : Diagnostics) (τ : Token) : Prop where
  ending : τ.symbol = .eof → τ.range.span = .point (Text.byteLength source)
  reported : τ.symbol = .invalid → ∃ c, τ.range.span.slice source = [c] ∧
    ∃ m ∈ d.toList, m.code = .invalidCharacter ∧ m.range = τ.range

theorem Token.IsGenuine.mono {source : List Char} {d d' : Diagnostics} {τ : Token}
    (h : τ.IsGenuine source d) (hMore : d.toList <+: d'.toList) : τ.IsGenuine source d' := by
  refine ⟨h.ending, fun hInvalid => ?_⟩
  obtain ⟨c, hText, m, hMem, hMessage⟩ := h.reported hInvalid
  exact ⟨c, hText, m, hMore.subset hMem, hMessage⟩

namespace Lexicon

/-- Whether no spelling is of a kind that is found without a rule. -/
def sparesSentinels (lx : Lexicon) : Bool :=
  lx.punctuators.entries.all fun p => p.symbol ∉ Symbol.sentinels

variable {lx : Lexicon} {c : Cursor} {source : List Char}

/-- Without a spelling of its own, a kind that no rule finds is found of a character that starts no
token alone. -/
theorem recognise_of_sentinel (hBuiltIn : lx.isBuiltIn = true) (hMore : c.rest ≠ []) :
    (∃ p ∈ lx.punctuators.entries, p.symbol = (lx.recognise c).token.symbol) ∨
      (lx.recognise c).token.symbol ∉ Symbol.sentinels ∨ lx.recognise c = recogniseInvalid c := by
  have hLiterals := isBuiltIn_of_mem_literals hBuiltIn
  have hQuiet := LiteralRule.messages_readFirst hLiterals hMore
  unfold recognise
  split
  · next messages reading hRead =>
    obtain ⟨rule, hMem, hRule⟩ := LiteralRule.mem_of_readFirst hRead
    refine .inr (.inl ?_)
    dsimp only
    rcases LiteralRule.symbol_of_read? (hLiterals rule hMem) hRule with hKind | hKind | hKind
    all_goals
      rw [hKind]
      decide
  · next messages hRead =>
    rw [hRead] at hQuiet
    dsimp only at hQuiet
    rw [hQuiet]
    split
    · next p hFound => exact .inl ⟨p, List.mem_of_find?_eq_some hFound, rfl⟩
    · split
      · simp only [recogniseName, Cursor.tokenTo, Token.covering]
        cases hWord : lx.punctuators.findSpelling? (c.rest.take (lx.names.read c).width) with
        | none => exact .inr (.inl (by decide))
        | some symbol => exact .inl (PunctuatorSet.mem_of_findSpelling? hWord)
      · exact .inr (.inr rfl)

/-- A token that was recognised is no start, no end, and reported if it is a character that starts
no other. -/
theorem isGenuine_recognise (hBuiltIn : lx.isBuiltIn = true) (hSpared : lx.sparesSentinels = true)
    (hIn : c.IsIn source) (hMore : c.rest ≠ []) {d : Diagnostics}
    (hReported : (lx.recognise c).messages ⊆ d.toList) :
    (lx.recognise c).token.symbol ≠ .sof ∧ (lx.recognise c).token.IsGenuine source d := by
  have hNone : ∀ p ∈ lx.punctuators.entries, p.symbol ∉ Symbol.sentinels := by
    simpa [sparesSentinels] using hSpared
  have hOther (h : (lx.recognise c).token.symbol ∉ Symbol.sentinels) :
      (lx.recognise c).token.symbol ≠ .sof ∧ (lx.recognise c).token.IsGenuine source d := by
    simp only [Symbol.sentinels, List.mem_cons, List.not_mem_nil, or_false, not_or] at h
    exact ⟨h.1, fun hEnd => absurd hEnd h.2.1, fun hInvalid => absurd hInvalid h.2.2⟩
  rcases recognise_of_sentinel hBuiltIn hMore with ⟨p, hMem, hSymbol⟩ | hKind | hInvalid
  · exact hOther (hSymbol ▸ hNone p hMem)
  · exact hOther hKind
  · have hKind : (recogniseInvalid c).token.symbol = .invalid := rfl
    rw [hInvalid] at hReported ⊢
    refine ⟨by rw [hKind]; decide, fun hEnd => ?_, fun _ => ?_⟩
    · rw [hKind] at hEnd
      cases hEnd
    · exact ⟨c.current, payload_recogniseInvalid hIn hMore, _, hReported List.mem_cons_self, rfl,
        rfl⟩

end Lexicon

namespace Lexer

variable {l m n : Lexer} {lx : Lexicon} {source : List Char} {tokens : List Token} {τ : Token}

/-- A lexer is used to find some tokens, and comes to a last state. It can be moved over characters,
asked for its next token, or iterated, in any order. -/
inductive Uses : Lexer → List Token → Lexer → Prop
  | done (l : Lexer) : Uses l [] l
  | advance {l m : Lexer} {tokens : List Token} (count : Nat)
      (hRest : Uses (l.advanceBy count) tokens m) : Uses l tokens m
  | next {l m : Lexer} {tokens : List Token} (hRest : Uses l.next.2 tokens m) :
      Uses l (l.next.1 :: tokens) m
  | yield {l m n : Lexer} {τ : Token} {tokens : List Token} (hFirst : l.yield? = (some τ, n))
      (hRest : Uses n tokens m) : Uses l (τ :: tokens) m

/-- Iterating a lexer to its end is one way of using it. -/
theorem Yields.uses (h : l.Yields tokens m) : l.Uses tokens m := by
  induction h with
  | @done l m hNone =>
      unfold yield? at hNone
      split at hNone
      · cases hNone
        exact .done l
      · cases hNone
  | next hFirst _ ih => exact .yield hFirst ih

/-- A lexer of a lexicon stands somewhere in a source. -/
structure IsOver (l : Lexer) (lx : Lexicon) (source : List Char) : Prop where
  lexicon : l.lexicon = lx
  cursor : l.cursor.IsIn source

theorem IsOver.advanceBy (h : l.IsOver lx source) (count : Nat) :
    (l.advanceBy count).IsOver lx source :=
  ⟨h.lexicon, h.cursor.advanceBy count⟩

/-- Asked for its next token, a lexer is started and stays over its source. -/
theorem IsOver.next (h : l.IsOver lx source) :
    l.next.2.IsOver lx source ∧ l.next.2.started = true := by
  unfold Lexer.next
  split
  · next hStarted =>
    have hSkipped : (l.lexicon.skip l.cursor).1.IsIn source :=
      l.lexicon.isIn_skipFrom [] h.cursor
    refine ⟨⟨h.lexicon, ?_⟩, hStarted⟩
    simp only [Lexicon.next]
    split
    · exact hSkipped
    · exact hSkipped.advanceBy _
  · exact ⟨⟨h.lexicon, h.cursor⟩, rfl⟩

theorem reported_next (l : Lexer) : l.diagnostics.toList <+: l.next.2.diagnostics.toList := by
  unfold Lexer.next
  split
  · simp [Diagnostics.toList, Diagnostics.append]
  · exact List.prefix_rfl

/-- What the iteration yields is the next token. It is behind that then, or behind one more
character. -/
theorem IsOver.yield? (h : l.IsOver lx source) (hFirst : l.yield? = (some τ, n)) :
    τ = l.next.1 ∧ n.IsOver lx source ∧ n.started = true ∧
      n.diagnostics = l.next.2.diagnostics := by
  obtain ⟨hOver, hStarted⟩ := h.next
  unfold Lexer.yield? at hFirst
  split at hFirst
  · cases hFirst
  · simp only [Prod.mk.injEq, Option.some.injEq] at hFirst
    obtain ⟨rfl, rfl⟩ := hFirst
    by_cases hInvalid : l.next.1.symbol = .invalid
    · have hSkipped := hOver.cursor.advanceBy 1
      rw [Cursor.advanceBy_one] at hSkipped
      simp only [hInvalid, if_true]
      exact ⟨trivial, ⟨hOver.lexicon, hSkipped⟩, hStarted, rfl⟩
    · simp only [hInvalid, if_false]
      exact ⟨trivial, ⟨hOver.lexicon, hOver.cursor⟩, hStarted, trivial⟩

/-- The first token is the start of the input. -/
theorem symbol_next (hStart : l.started = false) : l.next.1.symbol = .sof := by
  rw [next, hStart]
  rfl

/-- Every later token is genuine and no start of the input. -/
theorem IsOver.isGenuine_next (h : l.IsOver lx source) (hStarted : l.started = true)
    (hBuiltIn : lx.isBuiltIn = true) (hSpared : lx.sparesSentinels = true) :
    l.next.1.symbol ≠ .sof ∧ l.next.1.IsGenuine source l.next.2.diagnostics := by
  have hSkipped : (lx.skip l.cursor).1.IsIn source := lx.isIn_skipFrom [] h.cursor
  simp only [Lexer.next, hStarted, if_true, h.lexicon, Lexicon.next]
  split
  · next hEnd =>
    have hKind : ((lx.skip l.cursor).1.emptyToken .eof).symbol = .eof := rfl
    refine ⟨by rw [hKind]; decide, fun _ => ?_, fun hInvalid => ?_⟩
    · exact congrArg Span.point (hSkipped.offset_of_rest_eq_nil hEnd)
    · rw [hKind] at hInvalid
      cases hInvalid
  · next hMore =>
    apply Lexicon.isGenuine_recognise hBuiltIn hSpared hSkipped hMore
    intro m hMem
    simp [Diagnostics.toList, Diagnostics.append, hMem]

/-- A lexer keeps what it has reported. -/
theorem Uses.reported (h : l.Uses tokens m) (hOver : l.IsOver lx source) :
    l.diagnostics.toList <+: m.diagnostics.toList := by
  induction h with
  | done => exact List.prefix_rfl
  | advance count hRest ih => exact ih (hOver.advanceBy count)
  | next hRest ih => exact (reported_next _).trans (ih hOver.next.1)
  | yield hFirst hRest ih =>
      obtain ⟨-, hLater, -, hSame⟩ := hOver.yield? hFirst
      have hKept := ih hLater
      rw [hSame] at hKept
      exact (reported_next _).trans hKept

/-- Every token that a started lexer is used to find is genuine and no start of the input. -/
theorem Uses.isGenuine (h : l.Uses tokens m) (hOver : l.IsOver lx source)
    (hStarted : l.started = true) (hBuiltIn : lx.isBuiltIn = true)
    (hSpared : lx.sparesSentinels = true) :
    ∀ τ ∈ tokens, τ.symbol ≠ .sof ∧ τ.IsGenuine source m.diagnostics := by
  induction h with
  | done => exact List.forall_mem_nil _
  | advance count hRest ih => exact ih (hOver.advanceBy count) hStarted
  | next hRest ih =>
      obtain ⟨hLater, hStill⟩ := hOver.next
      obtain ⟨hStart, hFirst⟩ := hOver.isGenuine_next hStarted hBuiltIn hSpared
      exact List.forall_mem_cons.mpr
        ⟨⟨hStart, hFirst.mono (hRest.reported hLater)⟩, ih hLater hStill⟩
  | yield hFirst hRest ih =>
      obtain ⟨rfl, hLater, hStill, hSame⟩ := hOver.yield? hFirst
      obtain ⟨hStart, hGenuine⟩ := hOver.isGenuine_next hStarted hBuiltIn hSpared
      rw [← hSame] at hGenuine
      exact List.forall_mem_cons.mpr
        ⟨⟨hStart, hGenuine.mono (hRest.reported hLater)⟩, ih hLater hStill⟩

/-- Of a lexer that was not started, the first token is the start of the input and every other one
is genuine. -/
theorem Uses.isGenuine_tail (h : l.Uses tokens m) (hOver : l.IsOver lx source)
    (hStart : l.started = false) (hBuiltIn : lx.isBuiltIn = true)
    (hSpared : lx.sparesSentinels = true) :
    (∀ τ ∈ tokens.head?, τ.symbol = .sof) ∧
      ∀ τ ∈ tokens.tail, τ.symbol ≠ .sof ∧ τ.IsGenuine source m.diagnostics := by
  induction h with
  | done => simp
  | advance count hRest ih => exact ih (hOver.advanceBy count) hStart
  | next hRest ih =>
      obtain ⟨hLater, hStarted⟩ := hOver.next
      refine ⟨?_, hRest.isGenuine hLater hStarted hBuiltIn hSpared⟩
      rintro τ ⟨⟩
      exact symbol_next hStart
  | yield hFirst hRest ih =>
      obtain ⟨rfl, hLater, hStarted, -⟩ := hOver.yield? hFirst
      refine ⟨?_, hRest.isGenuine hLater hStarted hBuiltIn hSpared⟩
      rintro τ ⟨⟩
      exact symbol_next hStart

end Lexer

namespace Grammar

variable {g : Grammar}

/-- A spelling of a kind that is found without a rule is the name of that kind. -/
theorem SpellsNames.sparesSentinels (h : g.SpellsNames)
    (hSpellings : ∀ p ∈ g.lexicon.punctuators.entries, p.text ∉ ["#sof", "#eof", "#invalid"]) :
    g.lexicon.sparesSentinels = true := by
  simp only [Lexicon.sparesSentinels, List.all_eq_true, decide_eq_true_eq]
  intro p hMem hSentinel
  have hNames : ∀ s ∈ Symbol.sentinels, ∃ hLess : s.id < Symbol.predefinedNames.length,
      Symbol.predefinedNames[s.id] ∈ ["#sof", "#eof", "#invalid"] := by decide
  obtain ⟨hLess, hName⟩ := hNames p.symbol hSentinel
  rw [← g.symbols.name_eq_of_lt hLess, SymbolTable.name, h p hMem, Option.getD_some] at hName
  exact hSpellings p hMem hName

/-- However the lexer of a grammar is used on a source, it finds the start of the input first and
never again, the end only behind all of the source and without width, and a character that starts no
token only with a message about exactly that character. -/
theorem sentinels_of_uses {rules : Rules} {options : Options}
    (hRules : rules.grammar options = .ok g) (hBuiltIn : g.lexicon.isBuiltIn = true)
    (hSpellings : ∀ p ∈ g.lexicon.punctuators.entries, p.text ∉ ["#sof", "#eof", "#invalid"])
    {source : List Char} {tokens : List Token} {l : Lexer}
    (hUses : (Lexer.ofSource g.lexicon source).Uses tokens l) :
    (∀ i τ, tokens[i]? = some τ → (τ.symbol = .sof ↔ i = 0)) ∧
    (∀ τ ∈ tokens, τ.symbol = .eof → τ.range.span = .point (Text.byteLength source)) ∧
    ∀ τ ∈ tokens, τ.symbol = .invalid → ∃ c, τ.range.span.slice source = [c] ∧
      ∃ m ∈ l.diagnostics.toList, m.code = .invalidCharacter ∧ m.range = τ.range := by
  have hSpared := (spellsNames_of_rules hRules).sparesSentinels hSpellings
  obtain ⟨hFirst, hLater⟩ :=
    hUses.isGenuine_tail ⟨rfl, Cursor.isIn_ofSource source⟩ rfl hBuiltIn hSpared
  cases tokens with
  | nil => simp
  | cons first later =>
      have hStart : first.symbol = .sof := hFirst first rfl
      refine ⟨fun i τ hFound => ?_, ?_, ?_⟩
      · cases i with
        | zero =>
            obtain rfl : first = τ := Option.some.inj hFound
            exact iff_of_true hStart rfl
        | succ i =>
            exact iff_of_false (hLater τ (List.mem_of_getElem? hFound)).1 (Nat.succ_ne_zero i)
      · refine List.forall_mem_cons.mpr ⟨fun hEnd => ?_, fun τ hMem => (hLater τ hMem).2.ending⟩
        rw [hStart] at hEnd
        cases hEnd
      · refine List.forall_mem_cons.mpr
          ⟨fun hInvalid => ?_, fun τ hMem => (hLater τ hMem).2.reported⟩
        rw [hStart] at hInvalid
        cases hInvalid

end Grammar

namespace Sample

/-- Names with blanks between them. -/
def plainNames : Rules where
  lexical := [.ignore .blanks]
  declarations := Declaration.names

/-- Iterating over a name and a stray character finds all three kinds. -/
theorem sentinels_of_uses_plainNames :
    ∃ g tokens l, plainNames.grammar .standard = .ok g ∧
      (Lexer.ofSource g.lexicon "x $".toList).Uses tokens l ∧
      tokens.map (·.symbol) = [.sof, .name, .invalid, .eof] ∧
      (∀ τ ∈ tokens, τ.symbol = .eof → τ.range.span = .point 3) ∧
      ∀ τ ∈ tokens, τ.symbol = .invalid → ∃ c, τ.range.span.slice "x $".toList = [c] ∧
        ∃ m ∈ l.diagnostics.toList, m.code = .invalidCharacter ∧ m.range = τ.range := by
  have hRules : plainNames.grammar .standard = .ok
      ((plainNames.grammar .standard).toOption.getD default) :=
    Except.eq_ok_getD (by decide +kernel) default
  obtain ⟨l, hYields, -⟩ := Lexer.exists_yields
    ((plainNames.grammar .standard).toOption.getD default).lexicon "x $".toList
  obtain ⟨-, hEnd, hInvalid⟩ :=
    Grammar.sentinels_of_uses hRules (by decide +kernel) (by decide +kernel) hYields.uses
  exact ⟨_, _, l, hRules, hYields.uses, by decide +kernel, hEnd, hInvalid⟩

/-- The name of the kind that ends the input, registered as a spelling. -/
def markedEnd : Rules where
  lexical := [.ignore .blanks, .spelling "#eof"]
  declarations := []

/-- The lexer finds the end of the input at the start of the source then, four bytes wide, and
iterating it stops there. -/
theorem end_found_inside :
    ∃ g tokens l, markedEnd.grammar .standard = .ok g ∧ g.lexicon.isBuiltIn = true ∧
      (Lexer.ofSource g.lexicon "#eof x".toList).Yields tokens l ∧
      ∃ τ ∈ tokens, τ.symbol = .eof ∧ τ.range.span = ⟨0, 4⟩ := by
  obtain ⟨l, hYields, -⟩ := Lexer.exists_yields
    ((markedEnd.grammar .standard).toOption.getD default).lexicon "#eof x".toList
  refine ⟨_, _, l, Except.eq_ok_getD (by decide +kernel) default, by decide +kernel, hYields, ?_⟩
  decide +kernel

end Sample

end Precedence
