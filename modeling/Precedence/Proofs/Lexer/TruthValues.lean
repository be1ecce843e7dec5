import Precedence.Proofs.Lexer.Movement

/-!
Truth values and names. The word of a truth value ends where the next character goes on with no
word, and that is the same question under every policy for names. So a truth value is never the
front of a longer name exactly under the policies whose names go on with the characters of words
alone.
-/
namespace Precedence

/-- Whether a policy goes on with a character in a name. A policy of the user's own does not say so
for single characters. -/
def NamePolicy.isPart : NamePolicy → Char → Bool
  | .standard, x => LiteralRule.isWordPart x
  | .classes _ isPart, x => isPart x
  | .custom _ _, _ => false

namespace Lexicon

/-- Truth values are found by the rules for them alone: no spelling is of their kind, and no other
rule makes tokens of it. -/
structure HasOwnTruthValues (lx : Lexicon) : Prop where
  literals : ∀ rule ∈ lx.literals, ∀ c reading, rule.read? c = some reading →
    reading.token.symbol = .boolean → ∃ ignoreCase, rule = .boolean ignoreCase
  punctuators : ∀ p ∈ lx.punctuators.entries, p.symbol ≠ .boolean

/-- No truth value of a source is cut out of a longer name: the character behind it is none with
which a name goes on. -/
def SparesNames (lx : Lexicon) (source : List Char) : Prop :=
  ∀ lexeme ∈ lx.lexemes source, lexeme.token.symbol = .boolean → ∀ before x after,
    source = before ++ x :: after → Text.byteLength before = lexeme.token.range.span.stop →
      lx.names.isPart x = false

end Lexicon

/-! ### What stands behind a truth value -/

/-- A truth value ends in front of the end or of a character that goes on with no word. -/
theorem LiteralRule.exists_of_readBoolean? {ignoreCase : Bool} {c : Cursor}
    {reading : LiteralReading} (h : readBoolean? ignoreCase c = some reading) :
    ∃ n, reading.token.range.span.stop = (c.advanceBy n).offset ∧
      ∀ x, (c.advanceBy n).rest.head? = some x → isWordPart x = false := by
  obtain ⟨word, hFound, rfl⟩ := Option.map_eq_some_iff.mp h
  refine ⟨word.length, rfl, fun x hNext => ?_⟩
  have hWord := List.find?_some hFound
  rw [isWordAt, Bool.and_eq_true, Bool.not_eq_true', Cursor.peek] at hWord
  rw [Cursor.rest_advanceBy, List.head?_drop] at hNext
  rw [hNext] at hWord
  exact hWord.2

namespace Lexicon

variable {lx : Lexicon} {c : Cursor} {source : List Char}

/-- A token of a truth value is what a rule for truth values reads. -/
theorem HasOwnTruthValues.exists_of_recognise (h : lx.HasOwnTruthValues)
    (hSymbol : (lx.recognise c).token.symbol = .boolean) :
    ∃ ignoreCase reading, LiteralRule.readBoolean? ignoreCase c = some reading ∧
      (lx.recognise c).token = reading.token := by
  have hSpelling (p : Punctuator) (hMem : p ∈ lx.punctuators.entries) : p.symbol ≠ .boolean :=
    h.punctuators p hMem
  unfold recognise at hSymbol ⊢
  split at hSymbol
  · next messages reading hRead =>
    obtain ⟨rule, hMem, hRule⟩ := LiteralRule.mem_of_readFirst hRead
    obtain ⟨ignoreCase, rfl⟩ := h.literals rule hMem c reading hRule hSymbol
    exact ⟨ignoreCase, reading, hRule, rfl⟩
  · dsimp only at hSymbol
    split at hSymbol
    · next p hFound => exact absurd hSymbol (hSpelling p (List.mem_of_find?_eq_some hFound))
    · split at hSymbol
      · simp only [recogniseName, Cursor.tokenTo, Token.covering] at hSymbol
        cases hWord : lx.punctuators.findSpelling? (c.rest.take (lx.names.read c).width) with
        | none =>
            rw [hWord] at hSymbol
            cases hSymbol
        | some symbol =>
            obtain ⟨p, hMem, rfl⟩ := PunctuatorSet.mem_of_findSpelling? hWord
            rw [hWord] at hSymbol
            exact absurd hSymbol (hSpelling p hMem)
      · cases hSymbol

/-- The character behind a truth value goes on with no word, whatever a name is. -/
theorem HasOwnTruthValues.isWordPart_eq_false (h : lx.HasOwnTruthValues) {lexeme : Lexeme}
    (hMem : lexeme ∈ lx.lexemes source) (hSymbol : lexeme.token.symbol = .boolean)
    {before after : List Char} {x : Char} (hSource : source = before ++ x :: after)
    (hStop : Text.byteLength before = lexeme.token.range.span.stop) :
    LiteralRule.isWordPart x = false := by
  obtain ⟨body, last, hAll, hLast, hBody⟩ := lx.exists_lexemes_eq source
  rw [hAll] at hMem
  rcases List.mem_append.mp hMem with hInside | hEnd
  · obtain ⟨c, hFinds⟩ := hBody lexeme hInside
    rw [hFinds.token] at hSymbol hStop
    obtain ⟨ignoreCase, reading, hRead, hToken⟩ := h.exists_of_recognise hSymbol
    obtain ⟨n, hReach, hNext⟩ := LiteralRule.exists_of_readBoolean? hRead
    obtain ⟨read, hSplit, hOffset⟩ := hFinds.isIn.advanceBy n
    -- both name the same place of the source, by its offset
    have hSame : before = read ∧ x :: after = (c.advanceBy n).rest := by
      apply Text.eq_of_append_eq (hSource.symm.trans hSplit)
      rw [hStop, hToken, hReach, hOffset]
    apply hNext
    rw [← hSame.2]
    rfl
  · rw [List.mem_singleton.mp hEnd, hLast] at hSymbol
    cases hSymbol

/-! ### A lexicon of truth values and names -/

/-- The lexicon that has truth values and names and nothing else. -/
def ofTruthValues (ignoreCase : Bool) (names : NamePolicy) : Lexicon :=
  ⟨.empty, [.boolean ignoreCase], [], names⟩

theorem hasOwnTruthValues_ofTruthValues (ignoreCase : Bool) (names : NamePolicy) :
    (ofTruthValues ignoreCase names).HasOwnTruthValues :=
  ⟨fun _ hMem _ _ _ _ => ⟨ignoreCase, List.mem_singleton.mp hMem⟩, fun _ hMem => by cases hMem⟩

/-- In front of a character that goes on with no word, `true` is a truth value. -/
theorem exists_mem_lexemes_ofTruthValues (ignoreCase : Bool) (names : NamePolicy) {x : Char}
    (hPlain : LiteralRule.isWordPart x = false) :
    ∃ lexeme ∈ (ofTruthValues ignoreCase names).lexemes ("true".toList ++ [x]),
      lexeme.token.symbol = .boolean ∧ lexeme.token.range.span.stop = 4 := by
  let lx := ofTruthValues ignoreCase names
  let c := Cursor.ofSource ("true".toList ++ [x])
  have hStill : (IgnoreRule.readFirst c lx.ignores).width = 0 := rfl
  have hSkip : lx.skip c = (c, []) := by
    rw [skip, skipFrom, dif_neg (by simp [c, Cursor.ofSource]), dif_pos hStill]
    rfl
  have hWord : LiteralRule.isWordAt ignoreCase c "true".toList = true := by
    cases ignoreCase
    all_goals
      simp [LiteralRule.isWordAt, c, Cursor.ofSource, Cursor.startsWith, Cursor.peek,
        Text.startsWithUpToCase, Text.agreesUpToCase, hPlain]
  have hRead : LiteralRule.readBoolean? ignoreCase c =
      some ⟨c.tokenTo (c.advanceBy 4) .boolean, 4, []⟩ := by
    rw [LiteralRule.readBoolean?, List.find?_cons_of_pos hWord]
    rfl
  have hFound : (lx.recognise c).token = c.tokenTo (c.advanceBy 4) .boolean := by
    simp [recognise, lx, ofTruthValues, LiteralRule.readFirst, LiteralRule.read?, hRead]
  refine ⟨⟨(lx.recognise c).token, (lx.recognise c).messages⟩, ?_, ?_⟩
  · change _ ∈ lx.lexemes ("true".toList ++ [x])
    rw [lexemes, lexemesFrom_nil, hSkip]
    simp [c, Cursor.ofSource]
  · rw [hFound]
    exact ⟨rfl, rfl⟩

/-- Truth values are never cut out of longer names, in no source and whatever else a lexicon finds,
exactly if names go on with nothing but what words go on with. -/
theorem sparesNames_iff (names : NamePolicy) (ignoreCase : Bool) :
    (∀ lx : Lexicon, lx.names = names → .boolean ignoreCase ∈ lx.literals →
      lx.HasOwnTruthValues → ∀ source, lx.SparesNames source) ↔
        ∀ x, names.isPart x = true → LiteralRule.isWordPart x = true := by
  constructor
  · intro hSpares x hPart
    by_contra hPlain
    rw [Bool.not_eq_true] at hPlain
    obtain ⟨lexeme, hMem, hSymbol, hStop⟩ :=
      exists_mem_lexemes_ofTruthValues ignoreCase names hPlain
    have hSpared := hSpares (ofTruthValues ignoreCase names) rfl (List.mem_singleton_self _)
      (hasOwnTruthValues_ofTruthValues ignoreCase names) _ lexeme hMem hSymbol _ x [] rfl hStop.symm
    rw [show (ofTruthValues ignoreCase names).names = names from rfl, hPart] at hSpared
    cases hSpared
  · rintro hWords lx rfl - hOwn source lexeme hMem hSymbol before x after hSource hStop
    have hPlain := hOwn.isWordPart_eq_false hMem hSymbol hSource hStop
    by_contra hPart
    rw [hWords x (Bool.not_eq_false _ ▸ hPart)] at hPlain
    cases hPlain

end Lexicon

namespace Sample

/-- The front of `true'` is found as a truth value where truth values are and names may hold an
apostrophe. -/
theorem truthValue_cut_out_of_name :
    ∃ g, functions.grammar .standard = .ok g ∧
      g.lexicon.literals.any (fun | .boolean false => true | _ => false) = true ∧
      g.lexicon.names.isBuiltIn = true ∧ ¬g.lexicon.SparesNames "true'".toList := by
  let g := (functions.grammar .standard).toOption.getD default
  have hRules : functions.grammar .standard = .ok g := Except.eq_ok_getD (by decide +kernel) default
  have hFound : ∃ lexeme ∈ g.lexicon.lexemes "true'".toList, lexeme.token.symbol = .boolean ∧
      lexeme.token.range.span.stop = 4 := by decide +kernel
  have hPart : g.lexicon.names.isPart '\'' = true := by decide +kernel
  refine ⟨g, hRules, by decide +kernel, by decide +kernel, fun hSpares => ?_⟩
  obtain ⟨lexeme, hMem, hSymbol, hStop⟩ := hFound
  have hSpared := hSpares lexeme hMem hSymbol "true".toList '\'' [] rfl hStop.symm
  rw [hPart] at hSpared
  cases hSpared

end Sample

end Precedence
