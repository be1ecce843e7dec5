import Precedence.Proofs.Grammar.CleanParse
import Precedence.Proofs.Lexer.Iteration
import Precedence.Proofs.Lexer.Positions

/-!
How the tokens of a source divide it. Every token covers exactly the characters that are done with
once it has been found, so what lies between one token and the next is what was skipped there, rule
by rule; and a character that starts no token makes a token and a message of one and the same range.
-/
namespace Precedence

/-- An offset in a text where a character starts, or the text ends. -/
def Text.IsBoundary (text : List Char) (offset : Nat) : Prop :=
  ∃ front, front <+: text ∧ offset = byteLength front

theorem Cursor.IsIn.isBoundary {source : List Char} {c : Cursor} (h : c.IsIn source) :
    Text.IsBoundary source c.offset := by
  obtain ⟨read, hSource, hOffset⟩ := h
  exact ⟨read, ⟨c.rest, hSource.symm⟩, hOffset⟩

/-! ### What is skipped -/

/-- The number of characters that a rule skips at a cursor, if it applies there. -/
def IgnoreRule.width (rule : IgnoreRule) (c : Cursor) : Nat := (rule.read? c).elim 0 (·.width)

namespace Lexicon

/-- The rule that skips what stands at a cursor, which is the first that skips anything. -/
def skipsBy? (lx : Lexicon) (c : Cursor) : Option IgnoreRule :=
  lx.ignores.find? fun rule => 0 < rule.width c

/-- Rule by rule the lexer gets from one cursor to another. -/
inductive Skips (lx : Lexicon) : Cursor → Cursor → Prop
  | refl (c : Cursor) : Skips lx c c
  | step {c d : Cursor} {rule : IgnoreRule} (hRule : lx.skipsBy? c = some rule)
      (hRest : Skips lx (c.advanceBy (rule.width c)) d) : Skips lx c d

variable {lx : Lexicon} {source : List Char} {c d : Cursor}

/-- What is read first is what the rule for the cursor skips. -/
theorem exists_skipsBy?_eq (h : (IgnoreRule.readFirst c lx.ignores).width ≠ 0) :
    ∃ rule, lx.skipsBy? c = some rule ∧
      rule.width c = (IgnoreRule.readFirst c lx.ignores).width := by
  unfold skipsBy?
  generalize lx.ignores = rules at h
  induction rules with
  | nil => exact absurd rfl h
  | cons rule rules ih =>
      rw [IgnoreRule.readFirst] at h ⊢
      cases hRead : rule.read? c with
      | none =>
          rw [hRead] at h
          have hWidth : rule.width c = 0 := by rw [IgnoreRule.width, hRead]; rfl
          rw [List.find?_cons_of_neg (by simp [hWidth])]
          exact ih h
      | some reading =>
          have hWidth : rule.width c = reading.width := by rw [IgnoreRule.width, hRead]; rfl
          rw [hRead] at h
          by_cases hNone : reading.width = 0
          · simp only [if_pos hNone] at h ⊢
            rw [List.find?_cons_of_neg (by simp [hWidth, hNone])]
            exact ih h
          · simp only [if_neg hNone]
            refine ⟨rule, List.find?_cons_of_pos ?_, hWidth⟩
            simpa [hWidth] using Nat.pos_of_ne_zero hNone

theorem skips_skip (lx : Lexicon) (c : Cursor) : lx.Skips c (lx.skip c).1 := by
  unfold skip
  fun_induction skipFrom lx [] c with
  | case1 => exact .refl _
  | case2 => exact .refl _
  | case3 reported c reading hMore hSome ih =>
      obtain ⟨rule, hRule, hWidth⟩ := exists_skipsBy?_eq hSome
      refine .step hRule ?_
      rw [hWidth]
      exact ih

theorem Skips.isPlaced (h : lx.Skips c d) (hPlaced : c.IsPlaced source) : d.IsPlaced source := by
  induction h with
  | refl => exact hPlaced
  | step _ _ ih => exact ih (hPlaced.advanceBy _)

/-- Every byte on the way was skipped by one of the rules. -/
theorem Skips.exists_rule (h : lx.Skips c d) {offset : Nat} (hStart : c.offset ≤ offset)
    (hStop : offset < d.offset) :
    ∃ e rule, lx.Skips c e ∧ lx.skipsBy? e = some rule ∧ e.offset ≤ offset ∧
      offset < (e.advanceBy (rule.width e)).offset := by
  induction h with
  | refl => exact absurd hStart (Nat.not_le_of_lt hStop)
  | @step c d rule hRule hRest ih =>
      by_cases hHere : offset < (c.advanceBy (rule.width c)).offset
      · exact ⟨c, rule, .refl c, hRule, hStart, hHere⟩
      · obtain ⟨e, other, hSkips, hOther⟩ := ih (Nat.le_of_not_lt hHere) hStop
        exact ⟨e, other, .step hRule hSkips, hOther⟩

/-- A byte of a source was skipped behind a token: by the rule that applied first at a cursor to
which the lexer had got from the end of the token. -/
def SkippedBehind (lx : Lexicon) (source : List Char) (τ : Token) (offset : Nat) : Prop :=
  ∃ c d rule, c.IsPlaced source ∧ c.offset = τ.range.span.stop ∧ lx.Skips c d ∧
    lx.skipsBy? d = some rule ∧ d.offset ≤ offset ∧ offset < (d.advanceBy (rule.width d)).offset

end Lexicon

/-! ### One token -/

namespace LiteralRule

variable {rule : LiteralRule} {c : Cursor} {reading : LiteralReading}

/-- A literal is a number, a string or a truth value. -/
theorem symbol_of_read? (hBuiltIn : rule.isBuiltIn = true) (h : rule.read? c = some reading) :
    reading.token.symbol = .number ∨ reading.token.symbol = .string ∨
      reading.token.symbol = .boolean := by
  cases rule with
  | number format =>
      obtain ⟨-, ⟨⟩⟩ := Option.ite_none_right_eq_some.mp h
      exact .inl rfl
  | string opening closing escape =>
      obtain ⟨-, ⟨⟩⟩ := Option.ite_none_right_eq_some.mp h
      exact .inr (.inl rfl)
  | boolean ignoreCase =>
      obtain ⟨word, -, rfl⟩ := Option.map_eq_some_iff.mp h
      exact .inr (.inr rfl)
  | custom read? => cases hBuiltIn

/-- The text of a literal is what was read for some of its characters. -/
theorem exists_text_of_read? (hBuiltIn : rule.isBuiltIn = true) (h : rule.read? c = some reading) :
    ∃ k n, reading.token.text = ⟨(c.advanceBy k).offset, (c.advanceBy (k + n)).offset⟩ ∧
      k + n ≤ reading.width := by
  cases rule with
  | number format =>
      obtain ⟨-, ⟨⟩⟩ := Option.ite_none_right_eq_some.mp h
      exact ⟨0, _, by rw [Nat.zero_add]; rfl, Nat.le_of_eq (Nat.zero_add _)⟩
  | string opening closing escape =>
      obtain ⟨-, ⟨⟩⟩ := Option.ite_none_right_eq_some.mp h
      refine ⟨opening.length,
        (Delimited.scan closing escape 0 (c.advanceBy opening.length).rest).length, ?_, ?_⟩
      · simp only [readString, Cursor.advanceBy_advanceBy]
      · simp only [readString, Delimited.width]
        split <;> omega
  | boolean ignoreCase =>
      obtain ⟨word, -, rfl⟩ := Option.map_eq_some_iff.mp h
      exact ⟨0, _, by rw [Nat.zero_add]; rfl, Nat.le_of_eq (Nat.zero_add _)⟩
  | custom read? => cases hBuiltIn

end LiteralRule

/-- What was recognised at a cursor is all that is done with then, and so is its text in part; it is
reported as a character that starts no token exactly if it is one. -/
structure Recognition.Takes (r : Recognition) (c : Cursor) : Prop where
  span : r.token.range.span = ⟨c.offset, (c.advanceBy r.taken).offset⟩
  text : ∃ k n, r.token.text = ⟨(c.advanceBy k).offset, (c.advanceBy (k + n)).offset⟩ ∧
    k + n ≤ r.taken
  single : r.token.symbol = .invalid → r.taken = 1
  reported : (r.messages.filter (·.code = .invalidCharacter)).map (·.range) =
    if r.token.symbol = .invalid then [r.token.range] else []

namespace Lexicon

variable {lx : Lexicon} {source : List Char} {c : Cursor}

theorem takes_of_valid {r : Recognition} (hValid : r.token.symbol ≠ .invalid)
    (hSpan : r.token.range.span = ⟨c.offset, (c.advanceBy r.width).offset⟩)
    (hText : ∃ k n, r.token.text = ⟨(c.advanceBy k).offset, (c.advanceBy (k + n)).offset⟩ ∧
      k + n ≤ r.width)
    (hOther : ∀ m ∈ r.messages, m.code ≠ .invalidCharacter) : r.Takes c := by
  have hTaken : r.taken = r.width := if_neg hValid
  refine ⟨by rw [hTaken, hSpan], by rwa [hTaken], fun h => absurd h hValid, ?_⟩
  rw [if_neg hValid, List.map_eq_nil_iff, List.filter_eq_nil_iff]
  intro m hMem
  simpa using hOther m hMem

theorem takes_recogniseInvalid (hMore : c.rest ≠ []) : (recogniseInvalid c).Takes c := by
  have hStop : (c.advanceBy 1).offset = c.offset + c.current.utf8Size := by
    rw [c.advanceBy_one, Cursor.advance_of_ne_nil hMore]
  refine ⟨?_, ⟨0, 1, ?_, Nat.le_refl _⟩, fun _ => rfl, rfl⟩
  · exact congrArg (Span.mk c.offset) hStop.symm
  · exact congrArg (Span.mk c.offset) hStop.symm

theorem IsOrdinary.takes_recognise (h : lx.IsOrdinary) (hBuiltIn : lx.isBuiltIn = true)
    (hMore : c.rest ≠ []) : (lx.recognise c).Takes c := by
  have hRecognises := h.recognises c
  rcases recognise_cases hBuiltIn hMore with
    ⟨rule, hMem, reading, hRule, hFound⟩ | ⟨n, symbol, hFound⟩ | hFound
  all_goals rw [hFound] at hRecognises ⊢
  · have hLiteral := h.literals rule hMem
    refine takes_of_valid ?_ (LiteralRule.span_of_read? hLiteral hRule)
      (LiteralRule.exists_text_of_read? hLiteral hRule)
      (LiteralRule.accounts_read? hLiteral hMore hRule).1.other
    rcases LiteralRule.symbol_of_read? hLiteral hRule with hSymbol | hSymbol | hSymbol
    all_goals
      rw [hSymbol]
      decide
  · refine takes_of_valid ?_ rfl ⟨0, n, by rw [Nat.zero_add]; rfl, Nat.le_of_eq (Nat.zero_add n)⟩
      (List.forall_mem_nil _)
    intro hInvalid
    obtain ⟨m, hMem, -⟩ := hRecognises.reported_of_invalid hInvalid
    cases hMem
  · exact takes_recogniseInvalid hMore

/-- Nothing but the start of the input makes a token of the start. -/
theorem IsOrdinary.symbol_ne_sof (h : lx.IsOrdinary) (c : Cursor) :
    (lx.recognise c).token.symbol ≠ .sof := by
  have hSpelling {p : Punctuator} (hMem : p ∈ lx.punctuators.entries) : p.symbol ≠ .sof := by
    intro hSymbol
    have hOrdinary := h.punctuators p hMem
    rw [hSymbol] at hOrdinary
    cases hOrdinary
  unfold recognise
  split
  · next hRead =>
    obtain ⟨rule, hMem, hRule⟩ := LiteralRule.mem_of_readFirst hRead
    rcases LiteralRule.symbol_of_read? (h.literals rule hMem) hRule with hSymbol | hSymbol | hSymbol
    all_goals
      rw [hSymbol]
      decide
  · dsimp only
    split
    · next hFound => exact hSpelling (List.mem_of_find?_eq_some hFound)
    · split
      · simp only [recogniseName]
        cases hWord : lx.punctuators.findSpelling? (c.rest.take (lx.names.read c).width) with
        | none =>
            exact (by decide : Symbol.name ≠ .sof)
        | some symbol =>
            obtain ⟨p, hMem, rfl⟩ := PunctuatorSet.mem_of_findSpelling? hWord
            exact hSpelling hMem
      · exact (by decide : Symbol.invalid ≠ .sof)

end Lexicon

/-- A token covers some of a source from one boundary between characters to another, and its text
is a part of that with boundaries of its own. -/
structure Token.CoversSome (source : List Char) (τ : Token) : Prop where
  start : Text.IsBoundary source τ.range.span.start
  stop : Text.IsBoundary source τ.range.span.stop
  solid : τ.range.span.start < τ.range.span.stop
  textStart : Text.IsBoundary source τ.text.start
  textStop : Text.IsBoundary source τ.text.stop
  forward : τ.text.start ≤ τ.text.stop
  holdsText : τ.HoldsText

theorem Recognition.Takes.coversSome {r : Recognition} {c : Cursor} {source : List Char}
    (h : r.Takes c) (hIn : c.IsIn source) (hMore : c.rest ≠ []) (hSome : 0 < r.taken) :
    r.token.CoversSome source := by
  obtain ⟨k, n, hText, hLe⟩ := h.text
  refine ⟨?_, ?_, ?_, ?_, ?_, ?_, ?_⟩
  · rw [h.span]
    exact hIn.isBoundary
  · rw [h.span]
    exact (hIn.advanceBy _).isBoundary
  · rw [h.span]
    exact Cursor.offset_lt_advanceBy hMore hSome
  · rw [hText]
    exact (hIn.advanceBy _).isBoundary
  · rw [hText]
    exact (hIn.advanceBy _).isBoundary
  · rw [hText]
    exact c.offset_advanceBy_le (Nat.le_add_right k n)
  · rw [Token.HoldsText, h.span, hText]
    exact ⟨c.offset_le_advanceBy k, c.offset_advanceBy_le hLe⟩

/-- The text of an offset span is what was read from its start on. -/
theorem Cursor.IsIn.slice_advanceBy {source : List Char} {c : Cursor} (h : c.IsIn source)
    (n : Nat) : Span.slice ⟨c.offset, (c.advanceBy n).offset⟩ source = c.rest.take n :=
  h.payload_tokenTo n .name

/-! ### All tokens -/

/-- Tokens divide what stands in a source behind an earlier token. Each covers some of it, they
stand in order, and what none of them covers was skipped behind one of them or behind the earlier
one. The characters that start no token make tokens of their own and are reported with the same
ranges in the same order. -/
structure Lexicon.Divides (lx : Lexicon) (source : List Char) (earlier : Token)
    (tokens : List Token) (messages : List Message) : Prop where
  symbol : ∀ τ ∈ tokens, τ.symbol ≠ .sof ∧ τ.symbol ≠ .eof
  coversSome : ∀ τ ∈ tokens, τ.CoversSome source
  pairwise : (earlier :: tokens).Pairwise Token.Precedes
  complete : ∀ offset, earlier.range.span.stop ≤ offset → offset < Text.byteLength source →
    (∃ τ ∈ tokens, τ.range.span.start ≤ offset ∧ offset < τ.range.span.stop) ∨
      ∃ τ ∈ earlier :: tokens, lx.SkippedBehind source τ offset
  single : ∀ τ ∈ tokens, τ.symbol = .invalid → (τ.range.span.slice source).length = 1
  reported : (tokens.filter (·.symbol = .invalid)).map (·.range) =
    (messages.filter (·.code = .invalidCharacter)).map (·.range)

namespace Lexicon

variable {lx : Lexicon} {source : List Char} {c d : Cursor} {earlier τ : Token}
  {tokens : List Token} {found messages : List Message}

/-- Everything between two cursors was skipped behind the token that ends at the first of them. -/
theorem Skips.skippedBehind (h : lx.Skips c d) (hPlaced : c.IsPlaced source)
    (hEarlier : earlier.range.span.stop = c.offset) {offset : Nat}
    (hStart : earlier.range.span.stop ≤ offset) (hStop : offset < d.offset) :
    lx.SkippedBehind source earlier offset := by
  rw [hEarlier] at hStart
  obtain ⟨e, rule, hFrom, hRule⟩ := h.exists_rule hStart hStop
  exact ⟨c, e, rule, hPlaced, hEarlier.symm, hFrom, hRule⟩

/-- A token in front of others that divide what stands behind it divides it with them. -/
theorem Divides.cons (h : lx.Divides source τ tokens messages) (hBefore : earlier.Precedes τ)
    (hSkipped : ∀ offset, earlier.range.span.stop ≤ offset → offset < τ.range.span.start →
      lx.SkippedBehind source earlier offset)
    (hSymbol : τ.symbol ≠ .sof ∧ τ.symbol ≠ .eof) (hCovers : τ.CoversSome source)
    (hSingle : τ.symbol = .invalid → (τ.range.span.slice source).length = 1)
    (hReported : (found.filter (·.code = .invalidCharacter)).map (·.range) =
      if τ.symbol = .invalid then [τ.range] else []) :
    lx.Divides source earlier (τ :: tokens) (found ++ messages) := by
  refine ⟨List.forall_mem_cons.mpr ⟨hSymbol, h.symbol⟩,
    List.forall_mem_cons.mpr ⟨hCovers, h.coversSome⟩, ?_, fun offset hStart hLess => ?_,
    List.forall_mem_cons.mpr ⟨hSingle, h.single⟩, ?_⟩
  · refine List.pairwise_cons.mpr ⟨List.forall_mem_cons.mpr ⟨hBefore, fun υ hMem => ?_⟩,
      h.pairwise⟩
    have hBehind := (List.pairwise_cons.mp h.pairwise).1 υ hMem
    exact Nat.le_trans hBefore (Nat.le_trans (Nat.le_of_lt hCovers.solid) hBehind)
  · by_cases hFront : offset < τ.range.span.start
    · exact .inr ⟨earlier, List.mem_cons_self, hSkipped offset hStart hFront⟩
    · by_cases hToken : offset < τ.range.span.stop
      · exact .inl ⟨τ, List.mem_cons_self, Nat.le_of_not_lt hFront, hToken⟩
      · rcases h.complete offset (Nat.le_of_not_lt hToken) hLess with
          ⟨υ, hMem, hWithin⟩ | ⟨υ, hMem, hBehind⟩
        · exact .inl ⟨υ, List.mem_cons_of_mem _ hMem, hWithin⟩
        · exact .inr ⟨υ, List.mem_cons_of_mem _ hMem, hBehind⟩
  · rw [List.filter_append, List.map_append, hReported, ← h.reported, List.filter_cons]
    by_cases hInvalid : τ.symbol = .invalid <;> simp [hInvalid]

/-- What is skipped holds no character that is reported for starting no token. -/
theorem filter_skip (hBuiltIn : lx.isBuiltIn = true) (c : Cursor) :
    (lx.skip c).2.filter (·.code = .invalidCharacter) = [] := by
  rw [List.filter_eq_nil_iff]
  intro m hMem
  simpa using (areLaid_skip hBuiltIn c).2 m hMem

/-- What is read from the end of an earlier token on divides the rest of the source, and the end of
the input stands behind all of it. -/
theorem Reads.exists_divides {lexemes : List Lexeme} (h : lx.Reads c lexemes)
    (hOrdinary : lx.IsOrdinary) (hBuiltIn : lx.isBuiltIn = true) (hPlaced : c.IsPlaced source)
    (earlier : Token) (hEarlier : earlier.range.span.stop = c.offset) :
    ∃ body last, lexemes = body ++ [last] ∧ last.token.symbol = .eof ∧
      last.token.range.span = .point (Text.byteLength source) ∧
      lx.Divides source earlier (body.map (·.token)) (lexemes.flatMap (·.messages)) := by
  induction h generalizing earlier with
  | @ending c hEnd =>
      have hSkips := lx.skips_skip c
      have hStop := (hSkips.isPlaced hPlaced).isIn.offset_of_rest_eq_nil hEnd
      refine ⟨[], _, rfl, rfl, congrArg Span.point hStop, ?_⟩
      refine ⟨List.forall_mem_nil _, List.forall_mem_nil _, List.pairwise_singleton _ _,
        fun offset hStart hLess => .inr ⟨earlier, List.mem_cons_self, ?_⟩,
        List.forall_mem_nil _, ?_⟩
      · exact hSkips.skippedBehind hPlaced hEarlier hStart (by rwa [hStop])
      · simp [filter_skip hBuiltIn]
  | @next c lexemes hMore hRest ih =>
      have hSkips := lx.skips_skip c
      have hHere := hSkips.isPlaced hPlaced
      have hTakes := hOrdinary.takes_recognise hBuiltIn hMore
      have hStart : (lx.recognise (lx.skip c).1).token.range.span.start = (lx.skip c).1.offset :=
        congrArg Span.start hTakes.span
      obtain ⟨body, last, rfl, hLast, hEnd, hDivides⟩ :=
        ih (hHere.advanceBy _) _ (congrArg Span.stop hTakes.span)
      refine ⟨_ :: body, last, rfl, hLast, hEnd, ?_⟩
      rw [List.flatMap_cons]
      refine hDivides.cons ?_ (fun offset hFrom hLess => ?_)
        ⟨hOrdinary.symbol_ne_sof _, (hOrdinary.recognises _).symbol_ne_eof⟩
        (hTakes.coversSome hHere.isIn hMore (lx.taken_recognise_pos _)) (fun hInvalid => ?_) ?_
      · rw [Token.Precedes, hEarlier, hStart]
        exact lx.offset_le_skip c
      · rw [hStart] at hLess
        exact hSkips.skippedBehind hPlaced hEarlier hFrom hLess
      · rw [hTakes.span, hHere.isIn.slice_advanceBy, hTakes.single hInvalid, List.length_take]
        exact Nat.min_eq_left (List.length_pos_iff.mpr hMore)
      · rw [List.filter_append, filter_skip hBuiltIn, List.nil_append, hTakes.reported]

end Lexicon

namespace Grammar

variable {g : Grammar}

/-- Iterating the lexer of a grammar over a source yields the start of the input, tokens that divide
the source, and the end of the input behind all of it. -/
theorem tokens_divide {rules : Rules} {options : Options}
    (hRules : rules.grammar options = .ok g) (hBuiltIn : g.lexicon.isBuiltIn = true)
    (hSpellings : ∀ p ∈ g.lexicon.punctuators.entries, p.spelling.head? ≠ some '#')
    (source : List Char) :
    ∃ tokens last l,
      (Lexer.ofSource g.lexicon source).Yields (.empty .sof 0 .origin :: tokens ++ [last]) l ∧
      last.symbol = .eof ∧ last.range.span = .point (Text.byteLength source) ∧
      g.lexicon.Divides source (.empty .sof 0 .origin) tokens l.diagnostics.toList := by
  have hOrdinary :=
    isOrdinary_of_rules hRules (Lexicon.isBuiltIn_of_mem_literals hBuiltIn) hSpellings
  obtain ⟨l, hYields, hMessages⟩ := Lexer.exists_yields g.lexicon source
  obtain ⟨body, last, hAll, hLast, hEnd, hDivides⟩ :=
    (g.lexicon.reads_lexemes source).exists_divides hOrdinary hBuiltIn
      (Cursor.isPlaced_ofSource source) (.empty .sof 0 .origin) rfl
  rw [hOrdinary.stream_eq] at hYields hMessages
  refine ⟨body.map (·.token), last.token, l, ?_, hLast, hEnd, ?_⟩
  · rw [hAll] at hYields
    simpa using hYields
  · rw [hMessages]
    exact hDivides

end Grammar

namespace Sample

/-- Names and a number with blanks around them, and a character between them that starts no
token. -/
def spacedText : String := " a \t$b+ 12\n"

/-- The character at the fourth byte is the invalid token, and the blanks around it were skipped. -/
theorem tokens_divide_spacedText :
    ((operatorGrammar.lexicon.stream spacedText.toList).map fun lexeme =>
        (lexeme.token.symbol == .invalid, lexeme.token.range.span)) =
      [(false, .point 0), (false, ⟨1, 2⟩), (true, ⟨4, 5⟩), (false, ⟨5, 6⟩), (false, ⟨6, 7⟩),
        (false, ⟨8, 10⟩), (false, .point 11)] ∧
      ∃ tokens last l,
        (Lexer.ofSource operatorGrammar.lexicon spacedText.toList).Yields
          (.empty .sof 0 .origin :: tokens ++ [last]) l ∧
        last.range.span = .point 11 ∧
        operatorGrammar.lexicon.Divides spacedText.toList (.empty .sof 0 .origin) tokens
          l.diagnostics.toList := by
  have hRules : operators.grammar .standard = .ok operatorGrammar :=
    Except.eq_ok_getD (by decide +kernel) default
  obtain ⟨tokens, last, l, hYields, -, hEnd, hDivides⟩ :=
    Grammar.tokens_divide hRules (by decide +kernel) (by decide +kernel) spacedText.toList
  refine ⟨by decide +kernel, tokens, last, l, hYields, ?_, hDivides⟩
  rw [hEnd]
  decide +kernel

end Sample

end Precedence
