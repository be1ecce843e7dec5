import Mathlib.Data.List.Forall2
import Precedence.Proofs.Grammar.Reordered

/-!
The order of a vocabulary. A lexer that is told the same spellings in another order, and is
configured as before otherwise, finds the same tokens in every source: they have the same ranges and
texts, and symbols that are numbered anew but have the same names. The spellings have to mind the
case and to be told in a row, as far as spellings are concerned; rules of other kinds may stand
between them.
-/
namespace Precedence

/-! ### Configurations -/

namespace LexicalDeclaration

/-- The text that a declaration makes a symbol of. -/
def interned? : LexicalDeclaration → Option String
  | .spelling text | .keyword text | .literalOf text _ => some text
  | .ignore _ | .literal _ | .names _ => none

/-- Whether a declaration is about anything but a spelling. -/
def isSetting : LexicalDeclaration → Bool
  | .spelling _ | .keyword _ => false
  | .ignore _ | .literal _ | .literalOf _ _ | .names _ => true

/-- What is skipped and what an identifier is, after a declaration. -/
def configure (settings : List IgnoreRule × NamePolicy) :
    LexicalDeclaration → List IgnoreRule × NamePolicy
  | .ignore rule => (settings.1 ++ [rule], settings.2)
  | .names policy => (settings.1, policy)
  | .literal _ | .literalOf _ _ | .spelling _ | .keyword _ => settings

/-- Spellings do not matter to what is skipped and what an identifier is. -/
theorem foldl_configure_filter (lexical : List LexicalDeclaration)
    (settings : List IgnoreRule × NamePolicy) :
    (lexical.filter isSetting).foldl configure settings = lexical.foldl configure settings := by
  rw [List.foldl_filter]
  congr 1
  funext settings declaration
  cases declaration <;> simp [isSetting, configure]

theorem interned?_of_registered? {declaration : LexicalDeclaration} {spelling : String × Bool}
    (h : declaration.registered? = some spelling) : declaration.interned? = some spelling.1 := by
  cases declaration <;> cases h <;> rfl

theorem exists_registered? {declaration : LexicalDeclaration}
    (h : ¬declaration.isSetting = true) : ∃ spelling, declaration.registered? = some spelling := by
  cases declaration with
  | spelling | keyword => exact ⟨_, rfl⟩
  | ignore | literal | literalOf | names => exact absurd rfl h

/-- Declarations that tell the same spellings and settings make symbols of the same texts. -/
theorem forall_interned?_of_mem {lexical lexical' : List LexicalDeclaration}
    (h : ∀ declaration ∈ lexical, declaration.interned? ≠ some "")
    (hTold : ∀ spelling ∈ lexical'.filterMap registered?, spelling ∈ lexical.filterMap registered?)
    (hSettings : lexical'.filter isSetting = lexical.filter isSetting) :
    ∀ declaration ∈ lexical', declaration.interned? ≠ some "" := by
  intro declaration hMem
  by_cases hSetting : declaration.isSetting = true
  · have hThere : declaration ∈ lexical.filter isSetting :=
      hSettings ▸ List.mem_filter.mpr ⟨hMem, hSetting⟩
    exact h declaration (List.mem_filter.mp hThere).1
  · obtain ⟨spelling, hSpelling⟩ := exists_registered? hSetting
    obtain ⟨other, hOther, hSame⟩ := List.mem_filterMap.mp
      (hTold spelling (List.mem_filterMap.mpr ⟨declaration, hMem, hSpelling⟩))
    rw [interned?_of_registered? hSpelling, ← interned?_of_registered? hSame]
    exact h other hOther

/-- Whether a declaration adds a rule for literals. -/
def addsLiteral : LexicalDeclaration → Bool
  | .literal _ | .literalOf _ _ => true
  | .ignore _ | .names _ | .spelling _ | .keyword _ => false

/-- The rule for literals that a declaration adds, given the symbol of its text in a table. -/
inductive Adds (t : SymbolTable) : LexicalDeclaration → LiteralRule → Prop
  | literal (rule : LiteralRule) : Adds t (.literal rule) rule
  | literalOf {text : String} (rule : Symbol → LiteralRule) {symbol : Symbol}
      (h : t.find? text = some symbol) : Adds t (.literalOf text rule) (rule symbol)

/-- The rule for literals that a declaration adds, if it adds one, reads alike whichever of two
tables its symbol is from. -/
def ReadsAlike (t t' : SymbolTable) (declaration : LexicalDeclaration) : Prop :=
  ∀ rule rule', declaration.Adds t rule → declaration.Adds t' rule' → rule.Alike t t' rule'

theorem Adds.mono {t t' : SymbolTable} (hGrows : t.names.entries <+: t'.names.entries)
    {declaration : LexicalDeclaration} {rule : LiteralRule} (h : declaration.Adds t rule) :
    declaration.Adds t' rule := by
  cases h with
  | literal => exact .literal rule
  | literalOf rule hFound => exact .literalOf rule (SymbolTable.find?_mono hGrows hFound)

/-- Declarations add alike rules to two lexicons if each of them does. -/
theorem forall₂_alike {t t' : SymbolTable} {declarations : List LexicalDeclaration}
    {rules rules' : List LiteralRule} (h : List.Forall₂ (Adds t) declarations rules)
    (h' : List.Forall₂ (Adds t') declarations rules')
    (hAlike : ∀ declaration ∈ declarations, declaration.ReadsAlike t t') :
    List.Forall₂ (LiteralRule.Alike t t') rules rules' := by
  induction h generalizing rules' with
  | nil =>
      cases h'
      exact .nil
  | cons hFirst _ ih =>
      cases h' with
      | cons hFirst' hRest' =>
          obtain ⟨hHere, hLater⟩ := List.forall_mem_cons.mp hAlike
          exact .cons (hHere _ _ hFirst hFirst') (ih hRest' hLater)

/-- The rules of the library know no symbols but the predefined ones. -/
theorem readsAlike_of_isBuiltIn {rule : LiteralRule} (h : rule.isBuiltIn = true)
    (t t' : SymbolTable) : (literal rule).ReadsAlike t t' := by
  intro _ _ hAdds hAdds'
  cases hAdds
  cases hAdds'
  exact LiteralRule.alike_of_isBuiltIn h

/-- A rule that knows the symbol of its text by its name alone reads alike. -/
theorem readsAlike_literalOf {t t' : SymbolTable} {text : String} {rule : Symbol → LiteralRule}
    (h : ∀ s s', t.SameName t' s s' → (rule s).Alike t t' (rule s')) :
    (literalOf text rule).ReadsAlike t t' := by
  intro _ _ hAdds hAdds'
  cases hAdds with
  | literalOf _ hFound =>
      cases hAdds' with
      | literalOf _ hFound' => exact h _ _ (SymbolTable.sameName_of_find? hFound hFound')

theorem readsAlike_of_addsNothing {declaration : LexicalDeclaration}
    (h : declaration.addsLiteral = false) (t t' : SymbolTable) : declaration.ReadsAlike t t' := by
  intro _ _ hAdds _
  cases hAdds <;> cases h

theorem filter_addsLiteral_eq {lexical lexical' : List LexicalDeclaration}
    (hSettings : lexical'.filter isSetting = lexical.filter isSetting) :
    lexical'.filter addsLiteral = lexical.filter addsLiteral := by
  have hSetting : (fun declaration => addsLiteral declaration && isSetting declaration) =
      addsLiteral := by
    funext declaration
    cases declaration <;> rfl
  have hBoth := congrArg (List.filter addsLiteral) hSettings
  rwa [List.filter_filter, List.filter_filter, hSetting] at hBoth

end LexicalDeclaration

namespace Grammar

open LexicalDeclaration

variable {g g' : Grammar} {declaration : LexicalDeclaration} {lexical : List LexicalDeclaration}

/-- What the lexicon of a grammar skips, and what it takes for an identifier. -/
def settings (g : Grammar) : List IgnoreRule × NamePolicy := (g.lexicon.ignores, g.lexicon.names)

/-- Nothing but a symbol without a name can be wrong with a declaration about the lexicon. -/
theorem exists_declareLexical (g : Grammar) (h : declaration.interned? ≠ some "") :
    ∃ g', g.declareLexical declaration = .ok g' := by
  cases declaration with
  | ignore | literal | names => exact ⟨_, rfl⟩
  | literalOf text | spelling text | keyword text =>
      have hText : text ≠ "" := fun hEmpty => h (congrArg some hEmpty)
      simp only [declareLexical, addSpelling, g.symbols.intern_of_ne hText]
      exact ⟨_, rfl⟩

/-- What a declaration about the lexicon leaves behind. -/
theorem of_declareLexical (h : g.declareLexical declaration = .ok g') :
    declaration.interned? ≠ some "" ∧ g'.spellings = g.spellings ∧
      g'.settings = configure g.settings declaration := by
  cases declaration with
  | ignore | literal | names =>
      cases h
      exact ⟨nofun, rfl, rfl⟩
  | literalOf text =>
      simp only [declareLexical, Except.bind_eq_ok_iff, Prod.exists] at h
      obtain ⟨symbol, symbols, hIntern, hGrammar⟩ := h
      cases hGrammar
      refine ⟨fun hEmpty => ?_, rfl, rfl⟩
      exact SymbolTable.ne_empty_of_intern hIntern (Option.some.inj hEmpty)
  | spelling text | keyword text =>
      simp only [declareLexical, addSpelling, Except.bind_eq_ok_iff, Prod.exists] at h
      obtain ⟨symbol, v, ⟨found, symbols, hIntern, hAdded⟩, hGrammar⟩ := h
      cases hAdded
      cases hGrammar
      refine ⟨fun hEmpty => ?_, rfl, rfl⟩
      exact SymbolTable.ne_empty_of_intern hIntern (Option.some.inj hEmpty)

theorem exists_foldlM_declareLexical (g : Grammar)
    (h : ∀ declaration ∈ lexical, declaration.interned? ≠ some "") :
    ∃ g', lexical.foldlM declareLexical g = .ok g' := by
  induction lexical generalizing g with
  | nil => exact ⟨g, rfl⟩
  | cons declaration lexical ih =>
      obtain ⟨hFirst, hRest⟩ := List.forall_mem_cons.mp h
      obtain ⟨u, hDeclared⟩ := g.exists_declareLexical hFirst
      obtain ⟨g', hLater⟩ := ih u hRest
      exact ⟨g', by rw [List.foldlM_cons, hDeclared]; exact hLater⟩

theorem of_foldlM_declareLexical (h : lexical.foldlM declareLexical g = .ok g') :
    (∀ declaration ∈ lexical, declaration.interned? ≠ some "") ∧ g'.spellings = g.spellings ∧
      g'.settings = lexical.foldl configure g.settings := by
  refine Except.foldlM_consumed
    (motive := fun done u => (∀ declaration ∈ done, declaration.interned? ≠ some "") ∧
      u.spellings = g.spellings ∧ u.settings = done.foldl configure g.settings)
    ?_ [] ⟨List.forall_mem_nil _, rfl, rfl⟩ h
  rintro done u declaration v ⟨hDone, hSpellings, hSettings⟩ hStep
  obtain ⟨hText, hKept, hConfigured⟩ := of_declareLexical hStep
  refine ⟨?_, hKept.trans hSpellings, ?_⟩
  · rw [List.forall_mem_append]
    exact ⟨hDone, List.forall_mem_singleton.mpr hText⟩
  · rw [List.foldl_concat, hConfigured, hSettings]

/-- What a declaration about the lexicon adds to the rules for literals. -/
theorem exists_adds_of_declareLexical (h : g.declareLexical declaration = .ok g') :
    g.symbols.names.entries <+: g'.symbols.names.entries ∧
      ∃ added, g'.lexicon.literals = g.lexicon.literals ++ added ∧
        List.Forall₂ (Adds g'.symbols) ([declaration].filter addsLiteral) added := by
  cases declaration with
  | ignore | names =>
      cases h
      exact ⟨List.prefix_rfl, [], (List.append_nil _).symm, .nil⟩
  | literal rule =>
      cases h
      exact ⟨List.prefix_rfl, [rule], rfl, .cons (.literal rule) .nil⟩
  | literalOf text rule =>
      simp only [declareLexical, Except.bind_eq_ok_iff, Prod.exists] at h
      obtain ⟨symbol, symbols, hIntern, hGrammar⟩ := h
      cases hGrammar
      obtain ⟨hName, hGrows⟩ := SymbolTable.intern_eq_ok hIntern
      have hFound : symbols.find? text = some symbol := SymbolTable.find?_eq_some_iff.mpr hName
      exact ⟨hGrows, [rule symbol], rfl, .cons (.literalOf rule hFound) .nil⟩
  | spelling text | keyword text =>
      simp only [declareLexical, addSpelling, Except.bind_eq_ok_iff, Prod.exists] at h
      obtain ⟨symbol, v, ⟨found, symbols, hIntern, hAdded⟩, hGrammar⟩ := h
      cases hAdded
      cases hGrammar
      exact ⟨(SymbolTable.intern_eq_ok hIntern).2, [], (List.append_nil _).symm, .nil⟩

/-- The rules for literals are those that the declarations add, in their order. -/
theorem forall₂_adds {options : Options}
    (h : lexical.foldlM declareLexical (.empty options) = .ok g) :
    List.Forall₂ (Adds g.symbols) (lexical.filter addsLiteral) g.lexicon.literals := by
  refine Except.foldlM_consumed
    (motive := fun done u =>
      List.Forall₂ (Adds u.symbols) (done.filter addsLiteral) u.lexicon.literals)
    ?_ [] .nil h
  intro done u declaration v hDone hStep
  obtain ⟨hGrows, added, hLiterals, hAdded⟩ := exists_adds_of_declareLexical hStep
  rw [List.filter_append, hLiterals]
  exact List.rel_append (hDone.imp fun _ _ hAdds => hAdds.mono hGrows) hAdded

/-- Declarations about the lexicon alone make a grammar whose lexicon learns nothing at last. -/
theorem grammar_lexical_eq (lexical : List LexicalDeclaration) (options : Options) :
    Rules.grammar ⟨lexical, []⟩ options = lexical.foldlM declareLexical (.empty options) := by
  cases h : lexical.foldlM declareLexical (.empty options) with
  | error e => simp [Rules.grammar, h, bind, Except.bind]
  | ok g =>
      have hNone : g.spellings = [] := (of_foldlM_declareLexical h).2.1
      simp [Rules.grammar, h, bind, Except.bind, learnSpellings, hNone, pure, Except.pure]

theorem told_lexical {options : Options} (h : Rules.grammar ⟨lexical, []⟩ options = .ok g) :
    g.told ⟨lexical, []⟩ = lexical.filterMap registered? := by
  rw [grammar_lexical_eq] at h
  have hNone : g.spellings = [] := (of_foldlM_declareLexical h).2.1
  rw [told, hNone, List.map_nil, List.append_nil]

/-- The order in which a vocabulary is told to a lexer does not matter. Some spellings that mind the
case are told in another order, without any spelling in between that is not one of them, and
everything else is configured as before. Then the other lexer is made as well; and if the rules for
literals, which may know the symbol of a text, read alike with the symbols of both tables, as all of
the library do, both lexers yield tokens with the same ranges and texts and with symbols of the same
names in every source, and report the same. -/
theorem yields_of_reordered_vocabulary {options : Options} {lexical' : List LexicalDeclaration}
    {vocabulary vocabulary' : List String} {before after : List (String × Bool)}
    (hRules : Rules.grammar ⟨lexical, []⟩ options = .ok g)
    (hOrder : vocabulary.Perm vocabulary')
    (hTold : lexical.filterMap registered? = before ++ vocabulary.map (·, false) ++ after)
    (hTold' : lexical'.filterMap registered? = before ++ vocabulary'.map (·, false) ++ after)
    (hSettings : lexical'.filter isSetting = lexical.filter isSetting) :
    ∃ g', Rules.grammar ⟨lexical', []⟩ options = .ok g' ∧
      ((∀ declaration ∈ lexical, declaration.ReadsAlike g.symbols g'.symbols) →
        ∀ source : List Char, ∃ tokens tokens' l l',
          (Lexer.ofSource g.lexicon source).Yields tokens l ∧
          (Lexer.ofSource g'.lexicon source).Yields tokens' l' ∧
          List.Forall₂ (Token.Alike g.symbols g'.symbols) tokens tokens' ∧
          l.diagnostics = l'.diagnostics) := by
  have hMade := hRules
  rw [grammar_lexical_eq] at hMade
  obtain ⟨hNamed, -, hSet⟩ := of_foldlM_declareLexical hMade
  have hNamed' : ∀ declaration ∈ lexical', declaration.interned? ≠ some "" := by
    refine forall_interned?_of_mem hNamed (fun spelling hMem => ?_) hSettings
    rw [hTold, ((hOrder.map (·, false)).append_left before |>.append_right after).mem_iff, ← hTold']
    exact hMem
  obtain ⟨g', hMade'⟩ := (Grammar.empty options).exists_foldlM_declareLexical hNamed'
  obtain ⟨-, -, hSet'⟩ := of_foldlM_declareLexical hMade'
  have hRules' : Rules.grammar ⟨lexical', []⟩ options = .ok g' := by
    rw [grammar_lexical_eq, hMade']
  have hSame : g.settings = g'.settings := by
    rw [hSet, hSet', ← foldl_configure_filter lexical, ← hSettings, foldl_configure_filter]
  have hReorders : Reorders (g.told ⟨lexical, []⟩) (g'.told ⟨lexical', []⟩) := by
    rw [told_lexical hRules, told_lexical hRules', hTold, hTold']
    exact reorders_of_perm hOrder before after
  refine ⟨g', hRules', fun hReads source => ?_⟩
  have hLiterals : List.Forall₂ (LiteralRule.Alike g.symbols g'.symbols) g.lexicon.literals
      g'.lexicon.literals := by
    have hAdds := forall₂_adds hMade
    rw [← filter_addsLiteral_eq hSettings] at hAdds
    refine forall₂_alike hAdds (forall₂_adds hMade') fun declaration hMem => ?_
    rw [filter_addsLiteral_eq hSettings] at hMem
    exact hReads declaration (List.mem_filter.mp hMem).1
  have hAlike := alike_reorder hRules hRules' hReorders (congrArg Prod.fst hSame)
    (congrArg Prod.snd hSame) hLiterals
  obtain ⟨l, hYields, -⟩ := Lexer.exists_yields g.lexicon source
  obtain ⟨tokens', l', hYields', hTokens, hLast⟩ :=
    (Lexer.alike_ofSource hAlike source).yields hYields
  exact ⟨_, tokens', l, l', hYields, hYields', hTokens, hLast.diagnostics⟩

end Grammar

namespace Sample

/-- A rule of the user's own: a section sign is a literal of some symbol. -/
def sectionSign (symbol : Symbol) : LiteralRule :=
  .custom fun c =>
    if c.startsWith ['§'] then some ⟨c.tokenTo (c.advanceBy 1) symbol, 1, []⟩ else none

theorem alike_sectionSign {t t' : SymbolTable} {s s' : Symbol} (h : t.SameName t' s s') :
    (sectionSign s).Alike t t' (sectionSign s') := by
  intro c
  simp only [sectionSign, LiteralRule.read?]
  split
  · exact .some ⟨c.alike_tokenTo h _, rfl, rfl⟩
  · exact .none

/-- Signs behind a keyword, and a literal between them that has a symbol of its own. -/
def signs : List LexicalDeclaration :=
  [.ignore .blanks, .keyword "@A", .spelling "-", .literalOf "§" sectionSign, .spelling "->",
    .literal (.boolean false), .spelling "@a", .keyword "IF"]

/-- The same signs in another order. -/
def signsReordered : List LexicalDeclaration :=
  [.ignore .blanks, .keyword "@A", .spelling "@a", .spelling "->", .literalOf "§" sectionSign,
    .literal (.boolean false), .spelling "-", .keyword "IF"]

/-- The section sign has another number then, and is found like all other signs as before. -/
theorem yields_of_reordered_signs :
    ∃ g g' tokens tokens' l l', Rules.grammar ⟨signs, []⟩ .standard = .ok g ∧
      Rules.grammar ⟨signsReordered, []⟩ .standard = .ok g' ∧
      g.symbols.find? "§" = some ⟨9⟩ ∧ g'.symbols.find? "§" = some ⟨10⟩ ∧
      (Lexer.ofSource g.lexicon "x->@a - §§ if @".toList).Yields tokens l ∧
      (Lexer.ofSource g'.lexicon "x->@a - §§ if @".toList).Yields tokens' l' ∧
      List.Forall₂ (Token.Alike g.symbols g'.symbols) tokens tokens' ∧
      l.diagnostics = l'.diagnostics := by
  let g := (Rules.grammar ⟨signs, []⟩ .standard).toOption.getD default
  have hRules : Rules.grammar ⟨signs, []⟩ .standard = .ok g :=
    Except.eq_ok_getD (by decide +kernel) default
  let g₂ := (Rules.grammar ⟨signsReordered, []⟩ .standard).toOption.getD default
  have hRules₂ : Rules.grammar ⟨signsReordered, []⟩ .standard = .ok g₂ :=
    Except.eq_ok_getD (by decide +kernel) default
  have hTold : signs.filterMap LexicalDeclaration.registered? =
      [("@A", true)] ++ ["-", "->", "@a"].map (·, false) ++ [("IF", true)] := rfl
  have hTold₂ : signsReordered.filterMap LexicalDeclaration.registered? =
      [("@A", true)] ++ ["@a", "->", "-"].map (·, false) ++ [("IF", true)] := rfl
  obtain ⟨g', hRules', hYields⟩ :=
    Grammar.yields_of_reordered_vocabulary hRules (by decide) hTold hTold₂ rfl
  obtain rfl : g₂ = g' := Except.ok.inj (hRules₂.symm.trans hRules')
  have hFound : g.symbols.find? "§" = some ⟨9⟩ := by decide +kernel
  have hFound₂ : g₂.symbols.find? "§" = some ⟨10⟩ := by decide +kernel
  have hReads : ∀ declaration ∈ signs, declaration.ReadsAlike g.symbols g₂.symbols := by
    have hNothing {declaration : LexicalDeclaration} (h : declaration.addsLiteral = false) :=
      LexicalDeclaration.readsAlike_of_addsNothing h g.symbols g₂.symbols
    have hSign : (LexicalDeclaration.literalOf "§" sectionSign).ReadsAlike g.symbols g₂.symbols :=
      LexicalDeclaration.readsAlike_literalOf fun _ _ => alike_sectionSign
    have hBoolean : (LexicalDeclaration.literal (.boolean false)).ReadsAlike g.symbols g₂.symbols :=
      LexicalDeclaration.readsAlike_of_isBuiltIn rfl _ _
    simp only [signs, List.forall_mem_cons]
    exact ⟨hNothing rfl, hNothing rfl, hNothing rfl, hSign, hNothing rfl, hBoolean, hNothing rfl,
      hNothing rfl, List.forall_mem_nil _⟩
  obtain ⟨tokens, tokens', l, l', hTokens⟩ := hYields hReads "x->@a - §§ if @".toList
  exact ⟨g, g₂, tokens, tokens', l, l', hRules, hRules₂, hFound, hFound₂, hTokens⟩

/-- The place of a keyword among the spellings does matter: of the two ways to write an at sign with
a letter, the one that is told first is found. -/
example :
    let named (lexical : List LexicalDeclaration) :=
      (Rules.grammar ⟨lexical, []⟩ .standard).toOption.map fun g =>
        (g.lexicon.tokens "@a".toList).map fun τ => g.symbols.name τ.symbol
    named [.spelling "@a", .keyword "@A"] = some ["#sof", "@a", "#eof"] ∧
      named [.keyword "@A", .spelling "@a"] = some ["#sof", "@A", "#eof"] := by
  decide +kernel

end Sample

end Precedence
