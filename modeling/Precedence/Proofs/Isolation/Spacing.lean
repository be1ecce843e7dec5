import Precedence.Proofs.Isolation.Tokens

/-!
Spaces between tokens. The tokens of a source, cut out of it and written one behind the other with
single spaces between them, are found again as what they were: between two of them the space is all
that is skipped, and what stands behind a token did not decide what it is.
-/
namespace Precedence

/-! ### What is ignored -/

namespace IgnoreRule

variable {rules : List IgnoreRule} {rule : IgnoreRule} {c : Cursor}

/-- Nothing is skipped exactly where no rule skips anything. -/
theorem width_readFirst_eq_zero_iff :
    (readFirst c rules).width = 0 ↔ ∀ rule ∈ rules, rule.width c = 0 := by
  induction rules with
  | nil => simp [readFirst]
  | cons rule rules ih =>
      rw [List.forall_mem_cons, ← ih, readFirst, width]
      cases hRead : rule.read? c with
      | none => simp
      | some reading =>
          by_cases hNone : reading.width = 0
          · simp [hNone]
          · simp [hNone]

theorem width_eq_zero_iff (hBuiltIn : rule.isBuiltIn = true) (hMore : c.rest ≠ []) :
    rule.width c = 0 ↔ rule.read? c = none := by
  rw [width]
  cases hRead : rule.read? c with
  | none => simp
  | some reading => simp [Nat.ne_of_gt (width_pos_of_read? hBuiltIn hMore hRead)]

/-- At a space in front of something that a rule leaves, the rule skips no more than the space. -/
theorem width_le_one_of_space (hBuiltIn : rule.isBuiltIn = true)
    (hUnspaced : rule.isUnspaced = true) {rest : List Char} (hRest : c.rest = ' ' :: rest)
    (hNone : rule.read? (c.advanceBy 1) = none) : rule.width c ≤ 1 := by
  have hRun {test : Char → Bool} (hOther : test (c.advanceBy 1).current = false) :
      c.countWhile test ≤ 1 := by
    cases rest with
    | nil =>
        rw [Cursor.countWhile, hRest]
        exact (List.takeWhile_prefix _).length_le
    | cons x rest =>
        have hStop : test x = false := by
          simpa [Cursor.current, Cursor.peek, hRest] using hOther
        rw [Cursor.countWhile, hRest, List.takeWhile_cons]
        split
        · simp [hStop]
        · exact Nat.zero_le _
  have hText {text : List Char} (hText : Text.isUnspaced text = true) :
      ¬(text ≠ [] ∧ c.startsWith text = true) := by
    rintro ⟨hSome, hFront⟩
    have hHead := Cursor.head?_of_startsWith hSome hFront
    rw [hRest] at hHead
    exact Text.ne_space_of_isUnspaced hText (List.mem_of_head? hHead) rfl
  cases rule with
  | custom read? => cases hBuiltIn
  | fixed text =>
      rw [width, read?, if_neg (hText hUnspaced)]
      exact Nat.zero_le _
  | lineComment opening =>
      rw [width, read?, if_neg (hText hUnspaced)]
      exact Nat.zero_le _
  | blockComment opening closing =>
      rw [width, read?, if_neg (hText ((Bool.and_eq_true _ _).mp hUnspaced).1)]
      exact Nat.zero_le _
  | _ =>
      simp only [read?, ite_eq_right_iff, reduceCtorEq, imp_false, Bool.not_eq_true] at hNone
      rw [width, read?]
      split
      · exact hRun hNone
      · exact Nat.zero_le _

end IgnoreRule

namespace Lexicon

variable {lx : Lexicon} {c d : Cursor} {n : Nat}

/-- Where no rule skips anything, the cursor stays. -/
theorem skipFrom_of_still (reported : List Message)
    (h : (IgnoreRule.readFirst c lx.ignores).width = 0) : (lx.skipFrom reported c).1 = c := by
  rw [skipFrom]
  split
  · rfl
  · rfl

/-- Behind all that is skipped, no rule skips anything. -/
theorem still_skip (lx : Lexicon) (c : Cursor) :
    (lx.skip c).1.rest ≠ [] → (IgnoreRule.readFirst (lx.skip c).1 lx.ignores).width = 0 := by
  unfold skip
  fun_induction skipFrom lx [] c with
  | case1 reported c hEnd => exact fun hMore => absurd hEnd hMore
  | case2 reported c reading hSome hNone => exact fun _ => hNone
  | case3 reported c reading hSome hWide ih => exact ih

namespace IsSpacious

variable (hSpacious : lx.IsSpacious)

include hSpacious

theorem forall_read?_eq_none (hMore : c.rest ≠ [])
    (h : (IgnoreRule.readFirst c lx.ignores).width = 0) :
    ∀ rule ∈ lx.ignores, rule.read? c = none := fun rule hMem =>
  (IgnoreRule.width_eq_zero_iff (isBuiltIn_of_mem_ignores hSpacious.builtIn rule hMem) hMore).mp
    (IgnoreRule.width_readFirst_eq_zero_iff.mp h rule hMem)

/-- Nothing of a token that was cut out is skipped. -/
theorem still_isolated (hMore : c.rest ≠ []) (h : Text.Isolates c.rest n d.rest) (hSome : 0 < n)
    (hStill : (IgnoreRule.readFirst c lx.ignores).width = 0) :
    (IgnoreRule.readFirst d lx.ignores).width = 0 := by
  rw [IgnoreRule.width_readFirst_eq_zero_iff]
  intro rule hMem
  have hBuiltIn := isBuiltIn_of_mem_ignores hSpacious.builtIn rule hMem
  have hNone := IgnoreRule.read?_isolated hBuiltIn
    (hSpacious.isUnspaced_of_mem_ignores rule hMem) h hSome
    (hSpacious.forall_read?_eq_none hMore hStill rule hMem)
  rw [IgnoreRule.width, hNone]
  rfl

/-- A space in front of something that is not skipped is skipped alone. -/
theorem skip_space {rest : List Char} (hRest : c.rest = ' ' :: rest) (hMore : rest ≠ [])
    (hStill : (IgnoreRule.readFirst (c.advanceBy 1) lx.ignores).width = 0) :
    (lx.skip c).1 = c.advanceBy 1 := by
  have hBehind : (c.advanceBy 1).rest ≠ [] := by simpa [hRest] using hMore
  have hSome : (IgnoreRule.readFirst c lx.ignores).width ≠ 0 := by
    rw [Ne, IgnoreRule.width_readFirst_eq_zero_iff]
    intro hNone
    have hBlanks := hNone .blanks hSpacious.blanks
    rw [IgnoreRule.width_eq_zero_iff rfl (by simp [hRest])] at hBlanks
    simp [IgnoreRule.read?, Cursor.current, Cursor.peek, hRest, Text.isBlank_space] at hBlanks
  have hOne : (IgnoreRule.readFirst c lx.ignores).width = 1 := by
    obtain ⟨rule, hRule, hWidth⟩ := exists_skipsBy?_eq hSome
    have hMem := List.mem_of_find?_eq_some hRule
    have hLe := IgnoreRule.width_le_one_of_space
      (isBuiltIn_of_mem_ignores hSpacious.builtIn rule hMem)
      (hSpacious.isUnspaced_of_mem_ignores rule hMem) hRest
      (hSpacious.forall_read?_eq_none hBehind hStill rule hMem)
    omega
  rw [skip, skipFrom, dif_neg (by simp [hRest]), dif_neg (by omega), hOne]
  exact skipFrom_of_still _ hStill

end IsSpacious

end Lexicon

/-! ### Texts with spaces between them -/

/-- Texts one behind the other, with single spaces between them. -/
def Text.joined (words : List (List Char)) : List Char := [' '].intercalate words

/-- The texts that some tokens cover, but for the start and the end of the input, one behind the
other with single spaces between them. -/
def Token.spacedText (source : List Char) (tokens : List Token) : List Char :=
  Text.joined ((tokens.filter fun τ => τ.symbol ≠ .sof ∧ τ.symbol ≠ .eof).map
    (·.range.span.slice source))

namespace Text

variable {cs : List Char} {n : Nat} {words : List (List Char)}

/-- A text that was cut out stands on its own in front of others. -/
theorem isolates_joined (h : words ≠ [] → cs.drop n ≠ []) :
    Isolates cs n (joined (cs.take n :: words)) := by
  by_cases hNone : words = []
  · subst hNone
    exact .inl List.intercalate_singleton
  · refine .inr ⟨joined words, ?_, h hNone⟩
    rw [joined, List.intercalate_cons_of_ne_nil hNone, List.append_assoc]
    rfl

/-- Behind it stand the others, after a space. -/
theorem drop_joined (h : words ≠ [] → cs.drop n ≠ []) :
    (joined (cs.take n :: words)).drop n = joined words ∧ words = [] ∨
      (joined (cs.take n :: words)).drop n = ' ' :: joined words ∧ words ≠ [] := by
  by_cases hNone : words = []
  · subst hNone
    refine .inl ⟨?_, rfl⟩
    rw [joined, List.intercalate_singleton, joined, List.intercalate_nil, List.drop_eq_nil_iff,
      List.length_take]
    exact Nat.min_le_left _ _
  · refine .inr ⟨?_, hNone⟩
    have hLess : n < cs.length := by simpa using h hNone
    have hLength : (cs.take n).length = n := by rw [List.length_take]; omega
    rw [joined, List.intercalate_cons_of_ne_nil hNone, List.append_assoc, List.drop_append,
      hLength, Nat.sub_self, List.drop_of_length_le (Nat.le_of_eq hLength)]
    rfl

end Text

/-! ### All tokens -/

namespace Lexicon

variable {lx : Lexicon} {c : Cursor} {n : Nat} {source : List Char}

theorem ne_nil_of_skip (h : (lx.skip c).1.rest ≠ []) : c.rest ≠ [] := by
  intro hEnd
  have hLess := lx.length_rest_skipFrom_le [] c
  rw [hEnd] at hLess
  exact h (List.length_eq_zero_iff.mp (Nat.le_zero.mp hLess))

/-- What some tokens cover in a source. -/
def words (source : List Char) (lexemes : List Lexeme) : List (List Char) :=
  lexemes.map (·.token.range.span.slice source)

namespace IsSpacious

variable (hSpacious : lx.IsSpacious)

include hSpacious

/-- Where a token was cut out, with a space in front or without, only the space is skipped. -/
theorem rest_skip_eq (hMore : c.rest ≠ []) (hSome : 0 < n)
    (hStill : (IgnoreRule.readFirst c lx.ignores).width = 0) {text : List Char}
    (hCut : Text.Isolates c.rest n text) {e : Cursor}
    (hRest : e.rest = text ∨ e.rest = ' ' :: text) : (lx.skip e).1.rest = text := by
  rcases hRest with hRest | hRest
  · have hStay : (lx.skip e).1 = e := by
      apply skipFrom_of_still
      apply hSpacious.still_isolated hMore _ hSome hStill
      rwa [hRest]
    rw [hStay, hRest]
  · have hBehind : (e.advanceBy 1).rest = text := by simp [hRest]
    rw [hSpacious.skip_space hRest (hCut.ne_nil hSome hMore), hBehind]
    apply hSpacious.still_isolated hMore _ hSome hStill
    rwa [hBehind]

/-- A token that stands in front of others with a space between them is recognised as what it was,
and what is left behind it are the others. -/
theorem recognise_joined (hMore : c.rest ≠ [])
    (hStill : (IgnoreRule.readFirst c lx.ignores).width = 0) {words : List (List Char)}
    (hCut : words ≠ [] → c.rest.drop (lx.recognise c).taken ≠ []) {e : Cursor}
    (hFront : e.rest = Text.joined (c.rest.take (lx.recognise c).taken :: words) ∨
      e.rest = ' ' :: Text.joined (c.rest.take (lx.recognise c).taken :: words)) :
    Text.Isolates c.rest (lx.recognise c).taken (lx.skip e).1.rest ∧
      ((lx.skip e).1.rest.drop (lx.recognise c).taken = Text.joined words ∨
        (lx.skip e).1.rest.drop (lx.recognise c).taken = ' ' :: Text.joined words ∧
          words ≠ []) := by
  have hIsolates := Text.isolates_joined hCut
  rw [hSpacious.rest_skip_eq hMore (lx.taken_recognise_pos c) hStill hIsolates hFront]
  refine ⟨hIsolates, ?_⟩
  rcases Text.drop_joined hCut with ⟨hLast, -⟩ | hSpace
  · exact .inl hLast
  · exact .inr hSpace

/-- What is read from a cursor on is read again where its tokens stand with spaces between them, be
it with a space in front or without. -/
theorem exists_reads_joined {lexemes : List Lexeme} (h : lx.Reads c lexemes)
    (hPlaced : c.IsPlaced source)
    (hLeaves : ∀ lexeme ∈ lexemes, lx.LeavesTruthValues source lexeme.token) :
    ∃ body last, lexemes = body ++ [last] ∧ (words source body ≠ [] → c.rest ≠ []) ∧
      ∀ (e : Cursor) (spaced : List Char), e.IsIn spaced →
        (e.rest = Text.joined (words source body) ∨
          e.rest = ' ' :: Text.joined (words source body) ∧ words source body ≠ []) →
        ∃ found ending, lx.Reads e (found ++ [ending]) ∧
          found.map (·.token.symbol) = body.map (·.token.symbol) ∧
          words spaced found = words source body := by
  induction h with
  | @ending c hEnd =>
      refine ⟨[], _, rfl, fun hSome => absurd rfl hSome, fun e spaced _ hRest => ?_⟩
      have hNone : e.rest = [] := by
        rcases hRest with hRest | ⟨-, hSome⟩
        · rw [hRest]
          rfl
        · exact absurd rfl hSome
      have hStay : (lx.skip e).1.rest = [] := by
        by_contra hMore
        exact ne_nil_of_skip hMore hNone
      exact ⟨[], _, .ending hStay, rfl, rfl⟩
  | @next c lexemes hMore hRest ih =>
      have hHere := (lx.skips_skip c).isPlaced hPlaced
      obtain ⟨hFirst, hLater⟩ := List.forall_mem_cons.mp hLeaves
      obtain ⟨body, last, rfl, hCut, hAgain⟩ := ih (hHere.advanceBy _) hLater
      rw [Cursor.rest_advanceBy] at hCut
      have hSpan := (hSpacious.ordinary.takes_recognise hSpacious.builtIn hMore).span
      have hWord := hHere.isIn.slice_advanceBy (lx.recognise (lx.skip c).1).taken
      rw [← hSpan] at hWord
      refine ⟨_ :: body, last, rfl, fun _ => ne_nil_of_skip hMore, fun e spaced hThere hFront => ?_⟩
      have hWords : words source (⟨(lx.recognise (lx.skip c).1).token,
          (lx.skip c).2 ++ (lx.recognise (lx.skip c).1).messages⟩ :: body) =
          (lx.skip c).1.rest.take (lx.recognise (lx.skip c).1).taken :: words source body :=
        congrArg (· :: words source body) hWord
      rw [hWords] at hFront ⊢
      obtain ⟨hIsolates, hBehind⟩ := hSpacious.recognise_joined hMore (lx.still_skip c hMore) hCut
        (hFront.imp_right And.left)
      have hResembles := hSpacious.recognise_isolated hIsolates fun hString =>
        hFirst hString (lx.skip c).1 hHere (congrArg Span.start hSpan).symm
      have hMoreThere := hIsolates.ne_nil (lx.taken_recognise_pos _) hMore
      have hThereIn : (lx.skip e).1.IsIn spaced := lx.isIn_skipFrom [] hThere
      rw [← hResembles.taken_eq, ← Cursor.rest_advanceBy] at hBehind
      obtain ⟨found, ending, hReads, hSymbols, hFound⟩ :=
        hAgain _ spaced (hThereIn.advanceBy _) hBehind
      have hSlice := hThereIn.slice_advanceBy (lx.recognise (lx.skip e).1).taken
      rw [← (hSpacious.ordinary.takes_recognise hSpacious.builtIn hMoreThere).span,
        hResembles.taken_eq, hIsolates.take_eq (Nat.le_refl _)] at hSlice
      refine ⟨_ :: found, ending, .next hMoreThere hReads, ?_, ?_⟩
      · rw [List.map_cons, List.map_cons, hSymbols, hResembles.symbol]
      · rw [← hFound, ← hSlice]
        rfl

end IsSpacious

/-- What is read from a cursor on is settled. -/
theorem Reads.eq {lexemes others : List Lexeme} (h : lx.Reads c lexemes) (h' : lx.Reads c others) :
    lexemes = others := by
  induction h generalizing others with
  | ending hEnd =>
      cases h' with
      | ending => rfl
      | next hMore => exact absurd hEnd hMore
  | next hMore hRest ih =>
      cases h' with
      | ending hEnd => exact absurd hEnd hMore
      | next _ hOther => rw [ih hOther]

/-- What iterating a lexer yields over a source, from the start of the input to its end. -/
def tokens (lx : Lexicon) (source : List Char) : List Token := (lx.stream source).map (·.token)

/-- A source without all that is ignored in it: its tokens with single spaces between them. -/
def respaced (lx : Lexicon) (source : List Char) : List Char :=
  Token.spacedText source (lx.tokens source)

theorem slice_point (source : List Char) (offset : Nat) :
    (Span.point offset).slice source = [] := by
  simp only [Span.slice, Span.point, Text.slice?, Nat.le_refl, if_true, Nat.sub_self]
  cases Text.dropBytes? offset source with
  | none => rfl
  | some rest => simp [Text.takeBytes?]

/-- In an ordinary lexicon only the first token is the start of the input, and only the last one the
end. -/
theorem IsOrdinary.tokens_eq (h : lx.IsOrdinary) {body : List Lexeme} {last : Lexeme}
    (hAll : lx.lexemes source = body ++ [last]) :
    lx.tokens source = .empty .sof 0 .origin :: (body.map (·.token) ++ [last.token]) ∧
      last.token.symbol = .eof ∧ last.token.range.span.slice source = [] ∧
      ∀ lexeme ∈ body, lexeme.token.symbol ≠ .sof ∧ lexeme.token.symbol ≠ .eof := by
  obtain ⟨messages, stop, hLast⟩ := (lx.reads_lexemes source).exists_last
  rw [hAll, List.getLast?_concat, Option.some.injEq] at hLast
  obtain ⟨others, end_, hOthers, -, hFound⟩ := lx.exists_lexemes_eq source
  rw [hAll] at hOthers
  obtain ⟨rfl, -⟩ := List.append_inj' hOthers rfl
  refine ⟨?_, ?_, ?_, fun lexeme hMem => ?_⟩
  · rw [tokens, h.stream_eq, hAll, List.map_cons, List.map_append]
    rfl
  · rw [hLast]
    rfl
  · rw [hLast]
    exact slice_point source stop.offset
  · obtain ⟨d, hFinds⟩ := hFound lexeme hMem
    rw [hFinds.token]
    exact ⟨h.symbol_ne_sof d, (h.recognises d).symbol_ne_eof⟩

/-- The tokens between the start of the input and its end are those that are written again. -/
theorem IsOrdinary.respaced_eq (h : lx.IsOrdinary) {body : List Lexeme} {last : Lexeme}
    (hAll : lx.lexemes source = body ++ [last]) :
    lx.respaced source = Text.joined (words source body) := by
  obtain ⟨hTokens, hLast, -, hBody⟩ := h.tokens_eq hAll
  have hKept : (body.map (·.token)).filter (fun τ => τ.symbol ≠ .sof ∧ τ.symbol ≠ .eof) =
      body.map (·.token) := by
    rw [List.filter_eq_self]
    intro τ hMem
    obtain ⟨lexeme, hLexeme, rfl⟩ := List.mem_map.mp hMem
    simpa using hBody lexeme hLexeme
  have hStart : (Token.empty .sof 0 .origin).symbol = .sof := rfl
  rw [respaced, hTokens, Token.spacedText, List.filter_cons_of_neg (by simp [hStart]),
    List.filter_append, hKept, List.filter_cons_of_neg (by simp [hLast]), List.filter_nil,
    List.append_nil, List.map_map]
  rfl

/-- The tokens of a source written with single spaces between them are those of the source. -/
theorem IsSpacious.tokens_respaced (h : lx.IsSpacious)
    (hLeaves : ∀ τ ∈ lx.tokens source, lx.LeavesTruthValues source τ) :
    (lx.tokens (lx.respaced source)).map (·.symbol) = (lx.tokens source).map (·.symbol) ∧
      (lx.tokens (lx.respaced source)).map (·.range.span.slice (lx.respaced source)) =
        (lx.tokens source).map (·.range.span.slice source) := by
  have hEach : ∀ lexeme ∈ lx.lexemes source, lx.LeavesTruthValues source lexeme.token := by
    intro lexeme hMem
    apply hLeaves
    rw [tokens, h.ordinary.stream_eq]
    exact List.mem_cons_of_mem _ (List.mem_map_of_mem hMem)
  obtain ⟨body, last, hAll, -, hAgain⟩ :=
    h.exists_reads_joined (lx.reads_lexemes source) (Cursor.isPlaced_ofSource source) hEach
  rw [← h.ordinary.respaced_eq hAll] at hAgain
  obtain ⟨found, ending, hReads, hSymbols, hWords⟩ :=
    hAgain (.ofSource (lx.respaced source)) _ (Cursor.isIn_ofSource _) (.inl rfl)
  have hThere := (lx.reads_lexemes (lx.respaced source)).eq hReads
  obtain ⟨hTokens, hLast, hNothing, -⟩ := h.ordinary.tokens_eq hAll
  obtain ⟨hTokensThere, hLastThere, hNothingThere, -⟩ := h.ordinary.tokens_eq hThere
  rw [hTokens, hTokensThere]
  have hStart (source : List Char) :
      (Token.empty .sof 0 .origin).range.span.slice source = [] := slice_point source 0
  constructor
  · simpa [Function.comp_def, hLast, hLastThere] using hSymbols
  · simpa [Function.comp_def, hNothing, hNothingThere, hStart, words] using hWords

end Lexicon

namespace Grammar

variable {g : Grammar}

/-- The lexer of a grammar yields the same tokens over a source and over its tokens written with
single spaces between them: of the same symbols, and covering the same texts. No string of the
source may clip a truth value for that. -/
theorem tokens_of_respaced {rules : Rules} {options : Options}
    (hRules : rules.grammar options = .ok g) (hBuiltIn : g.lexicon.isBuiltIn = true)
    (hSpellings : ∀ p ∈ g.lexicon.punctuators.entries, p.spelling.head? ≠ some '#')
    (hNames : g.lexicon.names.isStandard = true)
    (hBlanks : g.lexicon.ignores.any (·.isBlanks) = true)
    (hUnspaced : g.lexicon.isUnspaced = true) {source : List Char}
    (hLeaves : ∀ τ ∈ g.lexicon.tokens source, g.lexicon.LeavesTruthValues source τ) :
    (∃ l, (Lexer.ofSource g.lexicon source).Yields (g.lexicon.tokens source) l) ∧
      (∃ l, (Lexer.ofSource g.lexicon (g.lexicon.respaced source)).Yields
        (g.lexicon.tokens (g.lexicon.respaced source)) l) ∧
      (g.lexicon.tokens (g.lexicon.respaced source)).map (·.symbol) =
        (g.lexicon.tokens source).map (·.symbol) ∧
      (g.lexicon.tokens (g.lexicon.respaced source)).map
          (·.range.span.slice (g.lexicon.respaced source)) =
        (g.lexicon.tokens source).map (·.range.span.slice source) := by
  have hOrdinary :=
    isOrdinary_of_rules hRules (Lexicon.isBuiltIn_of_mem_literals hBuiltIn) hSpellings
  have hStandard : g.lexicon.names = .standard := by
    cases hPolicy : g.lexicon.names with
    | standard => rfl
    | _ =>
        rw [hPolicy] at hNames
        cases hNames
  have hIgnored : .blanks ∈ g.lexicon.ignores := by
    obtain ⟨rule, hMem, hRule⟩ := List.any_eq_true.mp hBlanks
    cases rule with
    | blanks => exact hMem
    | _ => cases hRule
  have hYields (source : List Char) :
      ∃ l, (Lexer.ofSource g.lexicon source).Yields (g.lexicon.tokens source) l := by
    obtain ⟨l, hYields, -⟩ := Lexer.exists_yields g.lexicon source
    exact ⟨l, hYields⟩
  exact ⟨hYields source, hYields _, Lexicon.IsSpacious.tokens_respaced
    ⟨hOrdinary, hBuiltIn, hStandard, hIgnored, hUnspaced⟩ hLeaves⟩

end Grammar

namespace Sample

/-- Tokens of every kind with little or much between them. -/
def crowdedText : String := "x+=-0x1F.5e3$true/*y*/ 'a b'\n1e+truer// z"

/-- The tokens of the text are those of the text with single spaces between them. -/
theorem tokens_of_respaced_crowdedText :
    String.ofList (operatorGrammar.lexicon.respaced crowdedText.toList) =
        "x += -0x1F . 5e3 $ true 'a b' 1 e + truer" ∧
      (operatorGrammar.lexicon.tokens
          "x += -0x1F . 5e3 $ true 'a b' 1 e + truer".toList).map (·.symbol) =
        (operatorGrammar.lexicon.tokens crowdedText.toList).map (·.symbol) := by
  have hRules : operators.grammar .standard = .ok operatorGrammar :=
    Except.eq_ok_getD (by decide +kernel) default
  have hRespaced : operatorGrammar.lexicon.respaced crowdedText.toList =
      "x += -0x1F . 5e3 $ true 'a b' 1 e + truer".toList := by decide +kernel
  have hBuiltIn : operatorGrammar.lexicon.isBuiltIn = true := by decide +kernel
  have hOpenings : operatorGrammar.lexicon.literals.any LiteralRule.opensTruthValue = false := by
    decide +kernel
  obtain ⟨-, -, hSymbols, -⟩ := Grammar.tokens_of_respaced hRules hBuiltIn (by decide +kernel)
    (by decide +kernel) (by decide +kernel) (by decide +kernel) fun τ _ =>
      Lexicon.leavesTruthValues_of_openings hBuiltIn hOpenings crowdedText.toList τ
  rw [hRespaced] at hSymbols ⊢
  exact ⟨String.ofList_toList, hSymbols⟩

/-- White space, truth values and strings from one letter to another. -/
def letterStrings : Rules where
  lexical := [.ignore .blanks, .literal (.boolean false),
    .literal (.string ['t'] ['e'] (some '\\'))]
  declarations := []

/-- A string may clip a truth value that a rule in front declined, for the sake of the word that the
truth value is a part of: with a space behind it, it is a truth value. -/
theorem tokens_of_respaced_clipped :
    ∃ g, letterStrings.grammar .standard = .ok g ∧ g.lexicon.isBuiltIn = true ∧
      (∀ p ∈ g.lexicon.punctuators.entries, p.spelling.head? ≠ some '#') ∧
      g.lexicon.names.isStandard = true ∧ g.lexicon.ignores.any (·.isBlanks) = true ∧
      g.lexicon.isUnspaced = true ∧ g.lexicon.respaced "trueish".toList = "true ish".toList ∧
      (g.lexicon.tokens "trueish".toList).map (·.symbol) = [.sof, .string, .name, .eof] ∧
      (g.lexicon.tokens "true ish".toList).map (·.symbol) = [.sof, .boolean, .name, .eof] := by
  refine ⟨(letterStrings.grammar .standard).toOption.getD default,
    Except.eq_ok_getD (by decide +kernel) default, ?_⟩
  decide +kernel

end Sample

end Precedence
