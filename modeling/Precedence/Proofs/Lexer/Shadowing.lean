import Precedence.Proofs.Lexer.Spellings

/-!
Whether a registered spelling is found in its own text. Its text alone is one token, and that of its
symbol, unless another registered spelling shadows it there, or it starts like an identifier without
being one from end to end. Both can happen: a spelling in any case of its letters is one of many
texts, and a sign can be the front of a word.
-/
namespace Precedence

/-! ### One token -/

namespace Cursor

/-- A cursor is its parts. -/
theorem eq_of_parts {c d : Cursor} (hRest : c.rest = d.rest) (hOffset : c.offset = d.offset)
    (hPosition : c.position = d.position) : c = d := by
  cases c
  cases d
  simp_all

/-- As many characters as take all the bytes that are left are all characters that are left. -/
theorem drop_eq_nil_of_offset {c : Cursor} {n : Nat}
    (h : (c.advanceBy n).offset = (c.advanceBy c.rest.length).offset) : c.rest.drop n = [] := by
  by_contra hMore
  have hLeft : 0 < c.rest.length := by
    apply List.length_pos_iff.mpr
    intro hEnd
    simp [hEnd] at hMore
  have hThere : (c.advanceBy n).rest ≠ [] := by rwa [rest_advanceBy]
  have hLess := offset_lt_advanceBy hThere hLeft
  rw [advanceBy_advanceBy, h, offset_advanceBy, offset_advanceBy,
    List.take_of_length_le (Nat.le_refl _),
    List.take_of_length_le (Nat.le_add_left _ _)] at hLess
  exact Nat.lt_irrefl _ hLess

/-- Reading on at the end changes nothing. -/
theorem advanceBy_of_le {c : Cursor} {n : Nat} (h : c.rest.length ≤ n) :
    c.advanceBy n = c.advanceBy c.rest.length := by
  obtain ⟨k, rfl⟩ := Nat.exists_eq_add_of_le h
  rw [← advanceBy_advanceBy]
  cases k with
  | zero => rfl
  | succ k => simp [advanceBy]

/-- The end of a source has the offset and the position of all of it. -/
theorem advanceBy_ofSource (source : List Char) :
    ((ofSource source).advanceBy source.length).offset = Text.byteLength source ∧
      ((ofSource source).advanceBy source.length).position = Position.origin.advance source := by
  obtain ⟨read, hSource, hOffset, hPosition⟩ :=
    (isPlaced_ofSource source).advanceBy source.length
  have hEnd : ((ofSource source).advanceBy source.length).rest = [] := by simp [ofSource]
  rw [hEnd, List.append_nil] at hSource
  subst hSource
  rw [hEnd, Position.reading_eq_advance _ (by simp)] at hPosition
  exact ⟨hOffset, hPosition⟩

end Cursor

namespace Lexicon

variable {lx : Lexicon} {c : Cursor} {source : List Char}

/-- What is recognised where no literal stands covers what it reads, or is a character that starts
no token. -/
theorem recogniseOther_cases (lx : Lexicon) (c : Cursor) :
    (lx.recogniseOther c).token.symbol = .invalid ∨
      ∃ symbol, (lx.recogniseOther c).token =
        c.tokenTo (c.advanceBy (lx.recogniseOther c).width) symbol := by
  unfold recogniseOther
  split
  · exact .inr ⟨_, rfl⟩
  · split
    · exact .inr ⟨_, rfl⟩
    · exact .inl rfl

/-- A token that covers all that is left leaves the cursor at the end. -/
theorem advanceBy_recogniseOther {symbol : Symbol} (hSymbol : symbol ≠ .invalid)
    (h : (lx.recogniseOther c).token = c.tokenTo (c.advanceBy c.rest.length) symbol) :
    c.advanceBy (lx.recogniseOther c).width = c.advanceBy c.rest.length := by
  rcases lx.recogniseOther_cases c with hInvalid | ⟨other, hToken⟩
  · rw [h] at hInvalid
    exact absurd hInvalid hSymbol
  · rw [h] at hToken
    have hRange := congrArg Token.range hToken
    simp only [Cursor.tokenTo, Token.covering, Cursor.rangeTo, SourceRange.mk.injEq,
      Span.mk.injEq] at hRange
    obtain ⟨⟨-, hOffset⟩, -, hPosition⟩ := hRange
    apply Cursor.eq_of_parts _ hOffset.symm hPosition.symm
    simp [Cursor.drop_eq_nil_of_offset hOffset.symm]

/-- An identifier is all that is left and has the symbol of a spelling exactly if it reaches to the
end and is a word with that symbol. -/
theorem covers_recogniseName_iff {symbol : Symbol} (hSymbol : symbol ≠ .name) :
    (lx.recogniseName c).token = c.tokenTo (c.advanceBy c.rest.length) symbol ↔
      c.rest.length ≤ (lx.names.read c).width ∧
        lx.punctuators.findSpelling? c.rest = some symbol := by
  constructor
  · intro hCovers
    have hStop := congrArg (·.range.span.stop) hCovers
    have hWidth : c.rest.length ≤ (lx.names.read c).width := by
      simpa using Cursor.drop_eq_nil_of_offset hStop
    have hKind : (lx.punctuators.findSpelling? c.rest).getD .name = symbol := by
      rw [← List.take_of_length_le hWidth]
      exact congrArg Token.symbol hCovers
    refine ⟨hWidth, ?_⟩
    cases hSpelling : lx.punctuators.findSpelling? c.rest with
    | none =>
        rw [hSpelling] at hKind
        exact absurd hKind.symm hSymbol
    | some other =>
        rw [hSpelling] at hKind
        exact congrArg some hKind
  · rintro ⟨hWidth, hSpelling⟩
    rw [recogniseName, List.take_of_length_le hWidth, hSpelling, Cursor.advanceBy_of_le hWidth]
    rfl

end Lexicon

namespace Lexer

variable {lx : Lexicon} {source : List Char}

/-- Where nothing is left, the end of the input is yielded and no more. -/
theorem exists_yields_of_rest_eq_nil {c : Cursor} (d : Diagnostics) (hEnd : c.rest = []) :
    ∃ l, (Lexer.mk lx c true false d).Yields [c.emptyToken .eof] l := by
  have hSkip := lx.skip_of_end hEnd
  have hYield := yield?_of_end d (hSkip ▸ hEnd : (lx.skip c).1.rest = [])
  rw [hSkip] at hYield
  exact ⟨_, .next hYield (yields_nil_of_finished rfl)⟩

/-- A source that is quiet at its start is one token and no more if the token that is recognised
there covers it. -/
theorem yields_one_iff (hQuiet : lx.IsQuietAt (.ofSource source)) (hSource : source ≠ [])
    {symbol : Symbol} (hEnd : symbol ≠ .eof) (hInvalid : symbol ≠ .invalid) :
    let c := Cursor.ofSource source
    let stop := c.advanceBy source.length
    (∃ l, (ofSource lx source).Yields
        [c.emptyToken .sof, c.tokenTo stop symbol, stop.emptyToken .eof] l) ↔
      (lx.recogniseOther c).token = c.tokenTo stop symbol := by
  intro c stop
  obtain ⟨hToken, hWidth⟩ := Lexicon.recognise_of_other hQuiet.readFirst_eq
  have hStart : (ofSource lx source).yield? =
      (some (c.emptyToken .sof), ⟨lx, c, true, false, .empty⟩) := rfl
  have hMore : (lx.skip c).1.rest ≠ [] := by rwa [hQuiet.skip_eq]
  have hFirst := yield?_of_more .empty hMore
  rw [hQuiet.skip_eq, hToken] at hFirst
  constructor
  · rintro ⟨l, hYields⟩
    cases hYields with
    | next hSof hRest =>
        rw [hStart] at hSof
        cases hSof
        cases hRest with
        | next hOne _ =>
            rw [hFirst] at hOne
            simp only [Prod.mk.injEq, Option.some.injEq] at hOne
            exact hOne.1
  · intro hCovers
    have hTaken : (lx.recognise c).taken = (lx.recogniseOther c).width := by
      rw [Recognition.taken, hToken, hCovers, hWidth]
      exact if_neg hInvalid
    have hStop : c.advanceBy (lx.recogniseOther c).width = stop :=
      Lexicon.advanceBy_recogniseOther hInvalid hCovers
    have hAtEnd : stop.rest = [] := by simp [stop, c, Cursor.ofSource]
    have hOn : ((c.tokenTo stop symbol).symbol == .eof) = false := beq_false_of_ne hEnd
    rw [hTaken, hStop, hCovers, hOn] at hFirst
    obtain ⟨l, hYields⟩ := exists_yields_of_rest_eq_nil _ hAtEnd
    exact ⟨l, .next hStart (.next hFirst hYields)⟩

end Lexer

/-! ### One spelling -/

namespace Lexicon

/-- One registered spelling is found in the text of another instead of that one. In a text that
starts like an identifier this is every spelling in front that does not, and then, if case is
ignored, an earlier one that is spelled like it up to case. In another text it is an earlier one
that is spelled like it. -/
def Shadows (lx : Lexicon) (requests : List Registration) (q r : Registration) : Prop :=
  if lx.isWordLike r.spelling = true then
    lx.isWordLike q.spelling = false ∧ q.Fits r.spelling ∨
      r.ignoreCase = true ∧ q.SpellsBy true r.spelling ∧
        requests.idxOf q < requests.idxOf r
  else
    lx.isWordLike q.spelling = false ∧ q.Spells r.spelling ∧
      requests.idxOf q < requests.idxOf r
deriving Decidable

end Lexicon

namespace Grammar

variable {g : Grammar} {rules : Rules} {options : Options} {requests : List Registration}
  {c : Cursor} {r q : Registration}

/-- Granted registrations for one symbol are one registration, and so are those of one spelling. -/
theorem Names.eq_of_isGranted (hNames : ∀ r ∈ requests, g.Names r) (hr : r.IsGranted requests)
    (hq : q.IsGranted requests) (hSpelling : q.spelling = r.spelling) : q = r :=
  hq.eq hr (((hNames q hq.mem).symbol_eq_iff (hNames r hr.mem)).mpr hSpelling)

variable (hRecords : g.lexicon.punctuators.Records requests) (hGranted : r.IsGranted requests)

include hRecords hGranted

/-- A sign that stands at a cursor and is all that is left there is found unless it is shadowed. -/
theorem recogniseOther_sign_iff (hRest : c.rest = r.spelling)
    (hSign : g.lexicon.isWordLike r.spelling = false) :
    (g.lexicon.recogniseOther c).token = c.tokenTo (c.advanceBy c.rest.length) r.symbol ↔
      ∀ q : Registration, q.IsGranted requests → ¬g.lexicon.Shadows requests q r := by
  have hHolds : g.lexicon.MatchesAt c r := ⟨hSign, hRest ▸ r.spells_self.fits⟩
  have hLeads : r.Leads requests (g.lexicon.MatchesAt c) ↔
      ∀ q : Registration, q.IsGranted requests → ¬g.lexicon.Shadows requests q r := by
    rw [Registration.leads_iff hGranted hHolds]
    apply forall₂_congr
    intro q hq
    rw [← not_and, Lexicon.Shadows, if_neg (by simp [hSign]), Lexicon.MatchesAt, hRest, and_assoc,
      Registration.fits_and_outranks_iff]
  rw [← hLeads, ← hRecords.find?_iff Lexicon.accepts_iff]
  cases hFound : g.lexicon.punctuatorAt? c with
  | none =>
      exact absurd hHolds ((Lexicon.punctuatorAt?_eq_none_iff hRecords).mp hFound r hGranted)
  | some p =>
      have hOne : (g.lexicon.recogniseOther c).token =
          c.tokenTo (c.advanceBy p.length) p.symbol := by
        rw [Lexicon.recogniseOther, hFound]
      rw [hOne]
      constructor
      · intro hCovers
        have hSymbol : p.symbol = r.symbol := congrArg Token.symbol hCovers
        have hLeads := Lexicon.leads_of_punctuatorAt? hRecords hFound
        exact ⟨p, hFound, hLeads.granted.eq hGranted hSymbol⟩
      · rintro ⟨q, hSame, rfl⟩
        have hpq : p = q := Option.some.inj (hFound.symm.trans hSame)
        rw [hpq, hRest, q.length_eq]
        rfl

variable (hNames : ∀ r ∈ requests, g.Names r)

include hNames

/-- The word that a spelling is belongs to the symbol of the spelling, unless case is ignored and an
earlier spelling is the same word. -/
theorem findSpelling?_self_iff :
    g.lexicon.punctuators.findSpelling? r.spelling = some r.symbol ↔
      ∀ q : Registration, q.IsGranted requests →
        ¬(r.ignoreCase = true ∧ q.SpellsBy true r.spelling ∧
          requests.idxOf q < requests.idxOf r) := by
  have hSame {q : Registration} (hq : q.IsGranted requests) (h : q.SpellsBy false r.spelling) :
      q = r := by
    apply Names.eq_of_isGranted hNames hGranted hq
    obtain ⟨hCase, hSpells⟩ := h
    rw [Registration.Spells, hCase] at hSpells
    exact hSpells.symm
  rw [hRecords.findSpelling?_iff]
  cases hCase : r.ignoreCase with
  | false =>
      refine iff_of_true ⟨r, rfl, .inl ?_⟩ (by simp)
      rw [Registration.leads_iff hGranted ⟨hCase, r.spells_self⟩]
      intro q hq hSpells hRank
      rw [hSame hq hSpells] at hRank
      exact hRank.asymm hRank
  | true =>
      have hNone (q : Registration) (hq : q.IsGranted requests) :
          ¬q.SpellsBy false r.spelling := by
        intro hExact
        rw [hSame hq hExact, Registration.SpellsBy, hCase] at hExact
        cases hExact.1
      have hLeads : (∃ q : Registration, q.symbol = r.symbol ∧
          (q.Leads requests (Registration.SpellsBy false r.spelling) ∨
            (∀ q : Registration, q.IsGranted requests → ¬q.SpellsBy false r.spelling) ∧
              q.Leads requests (Registration.SpellsBy true r.spelling))) ↔
          r.Leads requests (Registration.SpellsBy true r.spelling) := by
        constructor
        · rintro ⟨q, hSymbol, hExact | ⟨-, hAnyCase⟩⟩
          · exact absurd hExact.holds (hNone q hExact.granted)
          · have hOne := hAnyCase.granted.eq hGranted hSymbol
            rwa [hOne] at hAnyCase
        · intro hAnyCase
          exact ⟨r, rfl, .inr ⟨hNone, hAnyCase⟩⟩
      rw [hLeads, Registration.leads_iff hGranted ⟨hCase, r.spells_self⟩]
      apply forall₂_congr
      intro q hq
      rw [← not_and]
      apply not_congr
      rw [and_congr_right fun hSpells : q.SpellsBy true r.spelling => hSpells.2.outranks_iff]
      simp

/-- A spelling that starts like an identifier, stands at a cursor and is all that is left there is
found unless it is shadowed or is not an identifier from end to end. -/
theorem recogniseOther_word_iff (hRest : c.rest = r.spelling)
    (hWord : g.lexicon.isWordLike r.spelling = true) (hOwn : r.symbol ≠ .name) :
    (g.lexicon.recogniseOther c).token = c.tokenTo (c.advanceBy c.rest.length) r.symbol ↔
      r.spelling.length ≤ (g.lexicon.names.read c).width ∧
        ∀ q : Registration, q.IsGranted requests → ¬g.lexicon.Shadows requests q r := by
  cases hFound : g.lexicon.punctuatorAt? c with
  | some p =>
      have hLeads := Lexicon.leads_of_punctuatorAt? hRecords hFound
      apply iff_of_false
      · intro hCovers
        rw [Lexicon.recogniseOther, hFound] at hCovers
        have hSymbol : p.symbol = r.symbol := congrArg Token.symbol hCovers
        have hSign := hLeads.holds.1
        rw [hLeads.granted.eq hGranted hSymbol, hWord] at hSign
        cases hSign
      · rintro ⟨-, hNone⟩
        apply hNone p.registration hLeads.granted
        rw [Lexicon.Shadows, if_pos hWord]
        exact .inl ⟨hLeads.holds.1, hRest ▸ hLeads.holds.2⟩
  | none =>
      have hSigns := (Lexicon.punctuatorAt?_eq_none_iff hRecords).mp hFound
      have hStart : g.lexicon.names.isStart c.current = true := by
        obtain ⟨x, rest, hSpelling⟩ := List.exists_cons_of_ne_nil (hNames r hGranted.mem).1
        rw [Lexicon.isWordLike, hSpelling] at hWord
        simpa [Cursor.current, Cursor.peek, hRest, hSpelling] using hWord
      have hShadows : (∀ q : Registration, q.IsGranted requests →
          ¬g.lexicon.Shadows requests q r) ↔
            g.lexicon.punctuators.findSpelling? r.spelling = some r.symbol := by
        rw [findSpelling?_self_iff hRecords hGranted hNames]
        apply forall₂_congr
        intro q hq
        have hSign : ¬(g.lexicon.isWordLike q.spelling = false ∧ q.Fits r.spelling) :=
          hRest ▸ hSigns q hq
        rw [Lexicon.Shadows, if_pos hWord]
        simp [hSign]
      rw [hShadows, Lexicon.recogniseOther, hFound]
      simp only [hStart, if_true]
      rw [Lexicon.covers_recogniseName_iff hOwn, hRest]

omit hRecords hGranted hNames

/-- A spelling that the rules declare, that one of their parselets mentions, or that was kept for
the lexicon otherwise, belongs to one registration that was granted. Where nothing is ignored and no
literal stands at its start, its text alone is the start of the input, one token of its symbol that
covers all of it, and the end of the input: exactly if no other granted registration shadows it and,
in case it starts like an identifier, it is one from end to end. -/
theorem yields_of_spelling (hRules : rules.grammar options = .ok g) {s : String} (hSome : s ≠ "")
    (hMark : s.toList.head? ≠ some '#')
    (hUsed : LexicalDeclaration.spelling s ∈ rules.lexical ∨
      (∃ declaration ∈ rules.declarations, s ∈ declaration.texts) ∨ s ∈ g.spellings)
    (hQuiet : g.lexicon.IsQuietAt (.ofSource s.toList)) :
    ∃ r : Registration, r.IsGranted (g.registrations rules) ∧ r.spelling = s.toList ∧
      g.symbols.find? s = some r.symbol ∧
      ((∃ l, (Lexer.ofSource g.lexicon s.toList).Yields
          [.empty .sof 0 .origin,
            .covering r.symbol ⟨⟨0, Text.byteLength s.toList⟩, .origin,
              Position.origin.advance s.toList⟩,
            .empty .eof (Text.byteLength s.toList) (Position.origin.advance s.toList)] l) ↔
        (g.lexicon.isWordLike s.toList = true →
          s.toList.length ≤ (g.lexicon.names.read (.ofSource s.toList)).width) ∧
        ∀ q : Registration, q.IsGranted (g.registrations rules) →
          ¬g.lexicon.Shadows (g.registrations rules) q r) := by
  obtain ⟨hRecords, hNames⟩ := records_of_rules hRules
  have hTold : (s, false) ∈ g.told rules := by
    rcases hUsed with hDeclared | ⟨declaration, hMem, hText⟩ | hKept
    · exact List.mem_append_left _ (List.mem_filterMap.mpr ⟨_, hDeclared, rfl⟩)
    · have hKept := mem_spellings_of_rules hRules hMem hText hMark hSome
      exact List.mem_append_right _ (List.mem_map_of_mem hKept)
    · exact List.mem_append_right _ (List.mem_map_of_mem hKept)
  obtain ⟨r, hGranted, hSpelling⟩ := exists_granted_of_told hRules hTold
  change r.spelling = s.toList at hSpelling
  have hNamed := hNames r hGranted.mem
  have hFound : g.symbols.find? s = some r.symbol := by
    rw [← hNamed.2, hSpelling, String.ofList_toList]
  have hPredefined : r.symbol.isPredefined = false := by
    rw [← hSpelling] at hMark
    obtain ⟨p, hMem, rfl⟩ := (hRecords.granted r).mpr hGranted
    exact (spellsNames_of_rules hRules).isPredefined_eq_false hMem hMark
  have hOther {symbol : Symbol} (h : symbol.isPredefined = true) : r.symbol ≠ symbol := by
    rintro rfl
    rw [hPredefined] at h
    cases h
  have hText : s.toList ≠ [] := by simpa using hSome
  refine ⟨r, hGranted, hSpelling, hFound, ?_⟩
  obtain ⟨hOffset, hPosition⟩ := Cursor.advanceBy_ofSource s.toList
  rw [← hOffset, ← hPosition]
  refine (Lexer.yields_one_iff hQuiet hText (hOther rfl) (hOther rfl)).trans ?_
  cases hWord : g.lexicon.isWordLike s.toList with
  | false =>
      rw [← hSpelling] at hWord
      refine (recogniseOther_sign_iff hRecords hGranted hSpelling.symm hWord).trans ?_
      simp
  | true =>
      rw [← hSpelling] at hWord
      refine (recogniseOther_word_iff hRecords hGranted hNames hSpelling.symm hWord
        (hOther rfl)).trans ?_
      simp [hSpelling]

end Grammar

namespace Sample

/-- Spellings that stand in each other's way, and a keyword. -/
def crowdedSpellings : Rules where
  lexical := [.ignore .blanks, .keyword "@A", .spelling "@a", .spelling "a+", .spelling "done"]
  declarations := []

/-- The keyword is found in its own text. -/
theorem yields_of_spelling_done :
    ∃ g symbol l, crowdedSpellings.grammar .standard = .ok g ∧
      g.symbols.find? "done" = some symbol ∧
      (Lexer.ofSource g.lexicon "done".toList).Yields
        [.empty .sof 0 .origin, .covering symbol ⟨⟨0, 4⟩, .origin, ⟨1, 5⟩⟩,
          .empty .eof 4 ⟨1, 5⟩] l := by
  let g := (crowdedSpellings.grammar .standard).toOption.getD default
  have hRules : crowdedSpellings.grammar .standard = .ok g :=
    Except.eq_ok_getD (by decide +kernel) default
  obtain ⟨r, hGranted, hSpelling, hFound, hYields⟩ :=
    Grammar.yields_of_spelling hRules (s := "done") (by decide) (by decide)
      (.inl (by simp [crowdedSpellings])) ⟨by decide +kernel, by decide +kernel⟩
  have hClear : ∀ r ∈ g.registrations crowdedSpellings, r.spelling = "done".toList →
      ∀ q ∈ g.registrations crowdedSpellings,
        ¬g.lexicon.Shadows (g.registrations crowdedSpellings) q r := by decide +kernel
  obtain ⟨l, hOne⟩ := hYields.mpr
    ⟨by decide +kernel, fun q hq => hClear r hGranted.mem hSpelling q hq.mem⟩
  exact ⟨g, r.symbol, l, hRules, hFound, hOne⟩

/-- Two spellings are not found in their own texts: one that starts like an identifier and goes on
with a sign, and one that another spelling was registered before up to case. -/
theorem spellings_not_yielded :
    ∃ g, crowdedSpellings.grammar .standard = .ok g ∧
      ∀ s ∈ ["a+", "@a"], LexicalDeclaration.spelling s ∈ crowdedSpellings.lexical ∧
        g.lexicon.IsQuietAt (.ofSource s.toList) ∧
        ∃ symbol, g.symbols.find? s = some symbol ∧
          ¬∃ l, (Lexer.ofSource g.lexicon s.toList).Yields
            [.empty .sof 0 .origin, .covering symbol ⟨⟨0, 2⟩, .origin, ⟨1, 3⟩⟩,
              .empty .eof 2 ⟨1, 3⟩] l := by
  let g := (crowdedSpellings.grammar .standard).toOption.getD default
  have hRules : crowdedSpellings.grammar .standard = .ok g :=
    Except.eq_ok_getD (by decide +kernel) default
  refine ⟨g, hRules, List.forall_mem_cons.mpr ⟨?_, List.forall_mem_singleton.mpr ?_⟩⟩
  · have hQuiet : g.lexicon.IsQuietAt (.ofSource "a+".toList) :=
      ⟨by decide +kernel, by decide +kernel⟩
    refine ⟨by simp [crowdedSpellings], hQuiet, ⟨9⟩, by decide +kernel, ?_⟩
    intro hYields
    have hCovers := (Lexer.yields_one_iff hQuiet (by decide) (by decide) (by decide)).mp hYields
    exact absurd hCovers (by decide +kernel)
  · have hQuiet : g.lexicon.IsQuietAt (.ofSource "@a".toList) :=
      ⟨by decide +kernel, by decide +kernel⟩
    refine ⟨by simp [crowdedSpellings], hQuiet, ⟨8⟩, by decide +kernel, ?_⟩
    intro hYields
    have hCovers := (Lexer.yields_one_iff hQuiet (by decide) (by decide) (by decide)).mp hYields
    exact absurd hCovers (by decide +kernel)

end Sample

end Precedence
