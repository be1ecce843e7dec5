import Precedence.Grammar.Declaration
import Precedence.Proofs.Symbol.Numbering

/-!
What declarations leave behind in a grammar, whatever they are. A spelling that the lexicon knows is
the name of its symbol, since both come from one declaration and a symbol never changes its name.
-/
namespace Precedence

/-! ### Declarations that can fail -/

theorem Except.bind_eq_ok_iff {ε α β : Type} {x : Except ε α} {f : α → Except ε β} {b : β} :
    (x >>= f) = .ok b ↔ ∃ a, x = .ok a ∧ f a = .ok b := by
  cases x with
  | error e => simp [bind, Except.bind]
  | ok a => simp [bind, Except.bind]

theorem Except.eq_ok_getD {ε α : Type} {x : Except ε α} (h : x.isOk = true) (d : α) :
    x = .ok (x.toOption.getD d) := by
  cases x with
  | error e => cases h
  | ok a => rfl

/-- What every declaration keeps, all of them together keep. -/
theorem Except.foldlM_induction {ε α β : Type} {motive : β → Prop} {f : β → α → Except ε β}
    (hStep : ∀ b a b', motive b → f b a = .ok b' → motive b') {l : List α} {b b' : β}
    (hStart : motive b) (h : l.foldlM f b = .ok b') : motive b' := by
  induction l generalizing b with
  | nil =>
      cases h
      exact hStart
  | cons a l ih =>
      rw [List.foldlM_cons, Except.bind_eq_ok_iff] at h
      obtain ⟨c, hFirst, hRest⟩ := h
      exact ih (hStep b a c hStart hFirst) hRest

/-- A spelling that is learned is the one that was given. -/
theorem PunctuatorSet.mem_of_mem_insert {set : PunctuatorSet} {symbol : Symbol}
    {spelling : List Char} {ignoreCase : Bool} {p : Punctuator}
    (h : p ∈ (set.insert symbol spelling ignoreCase).entries) :
    p ∈ set.entries ∨ p.symbol = symbol ∧ p.spelling = spelling := by
  unfold insert insert? at h
  split at h
  · exact .inl h
  · split at h
    · exact .inl h
    · next hSpelling _ =>
      rw [Option.getD_some, entries_add, (Punctuator.placeIn_perm _ _).mem_iff] at h
      rcases List.mem_cons.mp h with rfl | hOld
      · exact .inr ⟨rfl, rfl⟩
      · exact .inl hOld

namespace Grammar

/-- Every spelling that the lexicon knows is the name of its symbol. -/
def SpellsNames (g : Grammar) : Prop :=
  ∀ p ∈ g.lexicon.punctuators.entries, g.symbols.names.text? p.symbol.id = some p.text

/-- A grammar that goes on from another, with more symbols perhaps, and with the same spellings. -/
structure KeepsSpellings (g g' : Grammar) : Prop where
  symbols : g.symbols.names.entries <+: g'.symbols.names.entries
  punctuators : g'.lexicon.punctuators = g.lexicon.punctuators

variable {g g' g'' : Grammar}

theorem KeepsSpellings.refl (g : Grammar) : g.KeepsSpellings g := ⟨List.prefix_rfl, rfl⟩

theorem KeepsSpellings.trans (h : g.KeepsSpellings g') (h' : g'.KeepsSpellings g'') :
    g.KeepsSpellings g'' :=
  ⟨h.symbols.trans h'.symbols, h'.punctuators.trans h.punctuators⟩

theorem SpellsNames.keep (h : g.SpellsNames) (hKeeps : g.KeepsSpellings g') : g'.SpellsNames := by
  intro p hMem
  rw [hKeeps.punctuators] at hMem
  exact Interning.text?_mono hKeeps.symbols (h p hMem)

theorem SpellsNames.addSpelling (h : g.SpellsNames) {spelling : String} {ignoreCase : Bool}
    {symbol : Symbol} (hAdded : g.addSpelling spelling ignoreCase = .ok (symbol, g')) :
    g'.SpellsNames := by
  simp only [Grammar.addSpelling, Except.bind_eq_ok_iff, Prod.exists] at hAdded
  obtain ⟨other, symbols, hIntern, hGrammar⟩ := hAdded
  cases hGrammar
  obtain ⟨hName, hGrows⟩ := SymbolTable.intern_eq_ok hIntern
  intro p hMem
  rcases PunctuatorSet.mem_of_mem_insert hMem with hOld | ⟨hSymbol, hSpelling⟩
  · exact Interning.text?_mono hGrows (h p hOld)
  · rw [hSymbol, Punctuator.text, hSpelling, String.ofList_toList]
    exact hName

/-! ### Declarations about parselets -/

theorem keepsSpellings_noteSpelling (g : Grammar) (spelling : String) :
    g.KeepsSpellings (g.noteSpelling spelling) := by
  unfold noteSpelling
  split
  · exact .refl g
  · exact ⟨List.prefix_rfl, rfl⟩

theorem keepsSpellings_useSpelling {spelling : String} {symbol : Symbol}
    (h : g.useSpelling spelling = .ok (symbol, g')) : g.KeepsSpellings g' := by
  simp only [useSpelling, Except.bind_eq_ok_iff, Prod.exists] at h
  obtain ⟨other, symbols, hIntern, hGrammar⟩ := h
  cases hGrammar
  have hNoted := keepsSpellings_noteSpelling { g with symbols } spelling
  exact ⟨(SymbolTable.intern_eq_ok hIntern).2.trans hNoted.symbols, hNoted.punctuators⟩

theorem keepsSpellings_useSpelling? {spelling : Option String} {symbol : Option Symbol}
    (h : g.useSpelling? spelling = .ok (symbol, g')) : g.KeepsSpellings g' := by
  cases spelling with
  | none =>
      cases h
      exact .refl g
  | some spelling =>
      simp only [useSpelling?, Except.bind_eq_ok_iff, Prod.exists] at h
      obtain ⟨used, u, hUsed, hGrammar⟩ := h
      cases hGrammar
      exact keepsSpellings_useSpelling hUsed

theorem keepsSpellings_registerPrefix {spelling : String} {parselet : PrefixParselet}
    (h : g.registerPrefix spelling parselet = .ok g') : g.KeepsSpellings g' := by
  simp only [registerPrefix, Except.bind_eq_ok_iff, Prod.exists] at h
  obtain ⟨symbol, u, hUsed, hGrammar⟩ := h
  cases hGrammar
  exact (keepsSpellings_useSpelling hUsed).trans ⟨List.prefix_rfl, rfl⟩

theorem keepsSpellings_registerInfix {spelling : String} {power : BindingPower} {form : InfixForm}
    (h : g.registerInfix spelling power form = .ok g') : g.KeepsSpellings g' := by
  simp only [registerInfix, Except.bind_eq_ok_iff, Prod.exists] at h
  obtain ⟨symbol, u, hUsed, hGrammar⟩ := h
  cases hGrammar
  exact (keepsSpellings_useSpelling hUsed).trans ⟨List.prefix_rfl, rfl⟩

/-- A declaration about parselets leaves it to the end to teach its spellings to the lexicon. -/
theorem keepsSpellings_declare {declaration : Declaration}
    (h : g.declare declaration = .ok g') : g.KeepsSpellings g' := by
  cases declaration with
  | spelling spelling =>
      simp only [declare, Except.bind_eq_ok_iff, Prod.exists] at h
      obtain ⟨symbol, u, hUsed, hGrammar⟩ := h
      cases hGrammar
      exact keepsSpellings_useSpelling hUsed
  | handle symbol =>
      cases h
      exact keepsSpellings_noteSpelling g _
  | name | number | boolean | string | prefixOperator | customPrefix =>
      exact keepsSpellings_registerPrefix h
  | postfixOperator | infixOperator | lambda | customInfix =>
      exact keepsSpellings_registerInfix h
  | ternary first second power =>
      simp only [declare, Except.bind_eq_ok_iff, Prod.exists] at h
      obtain ⟨symbol, u, hSecond, hFirst⟩ := h
      exact (keepsSpellings_useSpelling hSecond).trans (keepsSpellings_registerInfix hFirst)
  | group opening closing separator wrapped =>
      simp only [declare, Except.bind_eq_ok_iff, Prod.exists] at h
      obtain ⟨closing, u, hClosing, separator, v, hSeparator, hOpening⟩ := h
      exact ((keepsSpellings_useSpelling hClosing).trans
        (keepsSpellings_useSpelling? hSeparator)).trans (keepsSpellings_registerPrefix hOpening)
  | call opening closing separator power =>
      simp only [declare, Except.bind_eq_ok_iff, Prod.exists] at h
      obtain ⟨closing, u, hClosing, separator, v, hSeparator, hOpening⟩ := h
      exact ((keepsSpellings_useSpelling hClosing).trans
        (keepsSpellings_useSpelling hSeparator)).trans (keepsSpellings_registerInfix hOpening)
  | block opening terminator separator wrap =>
      simp only [declare, Except.bind_eq_ok_iff, Prod.exists] at h
      obtain ⟨terminator, u, hTerminator, separator, v, hSeparator, hOpening⟩ := h
      exact ((keepsSpellings_useSpelling hTerminator).trans
        (keepsSpellings_useSpelling? hSeparator)).trans (keepsSpellings_registerPrefix hOpening)
  | customStatement symbol parse =>
      simp only [declare, Except.bind_eq_ok_iff, Prod.exists] at h
      obtain ⟨symbol, u, hUsed, hGrammar⟩ := h
      cases hGrammar
      exact (keepsSpellings_useSpelling hUsed).trans ⟨List.prefix_rfl, rfl⟩

/-! ### Whole grammars -/

theorem SpellsNames.declareLexical (h : g.SpellsNames) {declaration : LexicalDeclaration}
    (hDeclared : g.declareLexical declaration = .ok g') : g'.SpellsNames := by
  cases declaration with
  | ignore | literal | names =>
      cases hDeclared
      exact h
  | literalOf spelling rule =>
      simp only [Grammar.declareLexical, Except.bind_eq_ok_iff, Prod.exists] at hDeclared
      obtain ⟨symbol, symbols, hIntern, hGrammar⟩ := hDeclared
      cases hGrammar
      exact h.keep ⟨(SymbolTable.intern_eq_ok hIntern).2, rfl⟩
  | spelling spelling | keyword spelling =>
      simp only [Grammar.declareLexical, Except.bind_eq_ok_iff, Prod.exists] at hDeclared
      obtain ⟨symbol, u, hAdded, hGrammar⟩ := hDeclared
      cases hGrammar
      exact h.addSpelling hAdded

theorem SpellsNames.learnSpellings (h : g.SpellsNames) (hLearned : g.learnSpellings = .ok g') :
    g'.SpellsNames := by
  refine Except.foldlM_induction ?_ h hLearned
  intro u spelling v hu hStep
  simp only [Except.bind_eq_ok_iff, Prod.exists] at hStep
  obtain ⟨symbol, w, hAdded, hGrammar⟩ := hStep
  cases hGrammar
  exact hu.addSpelling hAdded

/-- In the grammar of any rules, every spelling that the lexicon knows is the name of its symbol. -/
theorem spellsNames_of_rules {rules : Rules} {options : Options}
    (h : rules.grammar options = .ok g) : g.SpellsNames := by
  simp only [Rules.grammar, Except.bind_eq_ok_iff] at h
  obtain ⟨u, hLexical, v, hDeclared, hLearned⟩ := h
  have hEmpty : (Grammar.empty options).SpellsNames := List.forall_mem_nil _
  have hu : u.SpellsNames :=
    Except.foldlM_induction (fun _ _ _ hBefore hStep => hBefore.declareLexical hStep) hEmpty
      hLexical
  have hv : v.SpellsNames :=
    Except.foldlM_induction
      (fun _ _ _ hBefore hStep => hBefore.keep (keepsSpellings_declare hStep)) hu hDeclared
  exact hv.learnSpellings hLearned

end Grammar

end Precedence
