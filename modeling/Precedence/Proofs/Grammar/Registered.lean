import Mathlib.Data.List.Find
import Precedence.Proofs.Grammar.Declared
import Precedence.Proofs.Punctuator.History

/-!
The spellings that the lexicon of a grammar learns, one behind the other: those that the rules
declare, and then those that the parselets use. Each is requested for the symbol that has it as its
name, so it is granted to the first declaration of it, and later ones change nothing.
-/
namespace Precedence

/-- What holds at the start and is carried on by every declaration, for one more that is done, holds
when all are done. -/
theorem Except.foldlM_consumed {ε α β : Type} {motive : List α → β → Prop}
    {f : β → α → Except ε β}
    (hStep : ∀ done b a b', motive done b → f b a = .ok b' → motive (done ++ [a]) b')
    (done : List α) {l : List α} {b b' : β} (hStart : motive done b) (h : l.foldlM f b = .ok b') :
    motive (done ++ l) b' := by
  induction l generalizing done b with
  | nil =>
      cases h
      rwa [List.append_nil]
  | cons a l ih =>
      rw [List.foldlM_cons, Except.bind_eq_ok_iff] at h
      obtain ⟨c, hFirst, hRest⟩ := h
      rw [List.append_cons]
      exact ih _ (hStep done b a c hStart hFirst) hRest

/-! ### Declared spellings -/

/-- The spelling that a declaration about the lexicon registers, and whether its case is ignored. -/
def LexicalDeclaration.registered? : LexicalDeclaration → Option (String × Bool)
  | .spelling text => some (text, false)
  | .keyword text => some (text, true)
  | .ignore _ | .literal _ | .literalOf _ _ | .names _ => none

namespace Grammar

variable {g g' : Grammar} {rules : Rules} {options : Options}
  {declared : List (String × Bool)} {r q : Registration}

/-- The spellings that the lexicon of a grammar is told, in the order in which it is told them:
those that the rules declare and then those that the parselets use. -/
def told (g : Grammar) (rules : Rules) : List (String × Bool) :=
  rules.lexical.filterMap LexicalDeclaration.registered? ++ g.spellings.map fun s => (s, false)

/-- A spelling requested for the symbol that has it as its name. -/
def request (g : Grammar) (spelling : String × Bool) : Registration :=
  ⟨(g.symbols.find? spelling.1).getD .foreign, spelling.1.toList, spelling.2⟩

/-- The requests by which the lexicon of a grammar is made. -/
def registrations (g : Grammar) (rules : Rules) : List Registration :=
  (g.told rules).map g.request

/-- A registration is one of a spelling under its own name. -/
def Names (g : Grammar) (r : Registration) : Prop :=
  r.spelling ≠ [] ∧ g.symbols.find? (String.ofList r.spelling) = some r.symbol

/-- The lexicon of a grammar has learned some spellings and no others. -/
def HasLearned (g : Grammar) (declared : List (String × Bool)) : Prop :=
  ∃ requests : List Registration,
    g.lexicon.punctuators = PunctuatorSet.empty.insertAll requests ∧
    requests.map (fun r => (String.ofList r.spelling, r.ignoreCase)) = declared ∧
    ∀ r ∈ requests, g.Names r

theorem Names.mono (h : g.Names r) (hGrows : g.symbols.names.entries <+: g'.symbols.names.entries) :
    g'.Names r :=
  ⟨h.1, SymbolTable.find?_mono hGrows h.2⟩

/-- Two registrations are for one symbol exactly if they are of one spelling. -/
theorem Names.symbol_eq_iff (hr : g.Names r) (hq : g.Names q) :
    r.symbol = q.symbol ↔ r.spelling = q.spelling := by
  constructor
  · intro hSymbol
    have hName := SymbolTable.find?_eq_some_iff.mp hr.2
    rw [hSymbol, SymbolTable.find?_eq_some_iff.mp hq.2, Option.some.injEq,
      String.ofList_inj] at hName
    exact hName.symm
  · intro hSpelling
    have hSame := hr.2
    rw [hSpelling, hq.2] at hSame
    exact (Option.some.inj hSame).symm

theorem hasLearned_empty (options : Options) : (empty options).HasLearned [] :=
  ⟨[], rfl, rfl, List.forall_mem_nil _⟩

theorem HasLearned.keep (h : g.HasLearned declared) (hKeeps : g.KeepsSpellings g') :
    g'.HasLearned declared := by
  obtain ⟨requests, hSet, hDeclared, hNames⟩ := h
  exact ⟨requests, hKeeps.punctuators.trans hSet, hDeclared,
    fun r hMem => (hNames r hMem).mono hKeeps.symbols⟩

theorem HasLearned.addSpelling (h : g.HasLearned declared) {spelling : String} {ignoreCase : Bool}
    {symbol : Symbol} (hAdded : g.addSpelling spelling ignoreCase = .ok (symbol, g')) :
    g'.HasLearned (declared ++ [(spelling, ignoreCase)]) := by
  simp only [Grammar.addSpelling, Except.bind_eq_ok_iff, Prod.exists] at hAdded
  obtain ⟨other, symbols, hIntern, hGrammar⟩ := hAdded
  cases hGrammar
  obtain ⟨hName, hGrows⟩ := SymbolTable.intern_eq_ok hIntern
  obtain ⟨requests, hSet, rfl, hNames⟩ := h
  refine ⟨requests ++ [⟨symbol, spelling.toList, ignoreCase⟩], ?_, ?_, ?_⟩
  · simp [hSet, PunctuatorSet.insertAll]
  · simp
  · intro r hMem
    rcases List.mem_append.mp hMem with hOld | hNew
    · exact (hNames r hOld).mono hGrows
    · obtain rfl := List.mem_singleton.mp hNew
      refine ⟨?_, ?_⟩
      · simpa using SymbolTable.ne_empty_of_intern hIntern
      · rw [String.ofList_toList, SymbolTable.find?_eq_some_iff]
        exact hName

theorem HasLearned.declareLexical (h : g.HasLearned declared) {declaration : LexicalDeclaration}
    (hDeclared : g.declareLexical declaration = .ok g') :
    g'.HasLearned (declared ++ declaration.registered?.toList) := by
  cases declaration with
  | ignore | literal | names =>
      cases hDeclared
      simp only [LexicalDeclaration.registered?, Option.toList_none, List.append_nil]
      exact h
  | literalOf spelling rule =>
      simp only [Grammar.declareLexical, Except.bind_eq_ok_iff, Prod.exists] at hDeclared
      obtain ⟨symbol, symbols, hIntern, hGrammar⟩ := hDeclared
      cases hGrammar
      simp only [LexicalDeclaration.registered?, Option.toList_none, List.append_nil]
      exact h.keep ⟨(SymbolTable.intern_eq_ok hIntern).2, rfl⟩
  | spelling spelling | keyword spelling =>
      simp only [Grammar.declareLexical, Except.bind_eq_ok_iff, Prod.exists] at hDeclared
      obtain ⟨symbol, u, hAdded, hGrammar⟩ := hDeclared
      cases hGrammar
      exact h.addSpelling hAdded

theorem spellings_addSpelling {spelling : String} {ignoreCase : Bool} {symbol : Symbol}
    (h : g.addSpelling spelling ignoreCase = .ok (symbol, g')) : g'.spellings = g.spellings := by
  simp only [Grammar.addSpelling, Except.bind_eq_ok_iff, Prod.exists] at h
  obtain ⟨other, symbols, -, hGrammar⟩ := h
  cases hGrammar
  rfl

theorem spellings_learnSpellings (h : g.learnSpellings = .ok g') : g'.spellings = g.spellings := by
  refine Except.foldlM_induction (motive := fun u => u.spellings = g.spellings) ?_ rfl h
  intro u spelling v hu hStep
  simp only [Except.bind_eq_ok_iff, Prod.exists] at hStep
  obtain ⟨symbol, w, hAdded, hGrammar⟩ := hStep
  cases hGrammar
  exact (spellings_addSpelling hAdded).trans hu

/-- The lexicon learns every spelling that the parselets use, in their order. -/
theorem HasLearned.learnSpellings (h : g.HasLearned declared)
    (hLearned : g.learnSpellings = .ok g') :
    g'.HasLearned (declared ++ g.spellings.map fun s => (s, false)) := by
  refine Except.foldlM_consumed
    (motive := fun done u => u.HasLearned (declared ++ done.map fun s => (s, false)))
    ?_ [] (by simpa using h) hLearned
  intro done u spelling v hu hStep
  simp only [Except.bind_eq_ok_iff, Prod.exists] at hStep
  obtain ⟨symbol, w, hAdded, hGrammar⟩ := hStep
  cases hGrammar
  simpa using hu.addSpelling hAdded

/-- The lexicon of the grammar of any rules is made by the requests that it is told. -/
theorem hasLearned_of_rules (h : rules.grammar options = .ok g) :
    g.HasLearned (g.told rules) := by
  simp only [Rules.grammar, Except.bind_eq_ok_iff] at h
  obtain ⟨u, hLexical, v, hDeclared, hLearned⟩ := h
  have hu : u.HasLearned (rules.lexical.filterMap LexicalDeclaration.registered?) := by
    refine Except.foldlM_consumed
      (motive := fun done w => w.HasLearned (done.filterMap LexicalDeclaration.registered?))
      ?_ [] (hasLearned_empty options) hLexical
    intro done w declaration w' hw hStep
    rw [List.filterMap_append]
    cases hKind : declaration.registered? with
    | none => simpa [hKind] using hw.declareLexical hStep
    | some spelling => simpa [hKind] using hw.declareLexical hStep
  have hv : v.HasLearned (rules.lexical.filterMap LexicalDeclaration.registered?) :=
    Except.foldlM_induction
      (motive := fun w => w.HasLearned (rules.lexical.filterMap LexicalDeclaration.registered?))
      (fun _ _ _ hBefore hStep => hBefore.keep (keepsSpellings_declare hStep)) hu hDeclared
  rw [told, spellings_learnSpellings hLearned]
  exact hv.learnSpellings hLearned

theorem Names.request_eq (h : g.Names r) :
    g.request (String.ofList r.spelling, r.ignoreCase) = r := by
  rw [request, h.2, String.toList_ofList]
  rfl

/-- The lexicon of the grammar of any rules records what was registered, every spelling under its
own name. -/
theorem records_of_rules (h : rules.grammar options = .ok g) :
    g.lexicon.punctuators.Records (g.registrations rules) ∧
      ∀ r ∈ g.registrations rules, g.Names r := by
  obtain ⟨requests, hSet, hTold, hNames⟩ := hasLearned_of_rules h
  have hRequests : g.registrations rules = requests := by
    rw [registrations, ← hTold, List.map_map]
    conv_rhs => rw [← List.map_id requests]
    exact List.map_congr_left fun r hMem => (hNames r hMem).request_eq
  rw [hRequests, hSet]
  exact ⟨PunctuatorSet.records_insertAll requests, hNames⟩

/-- Every spelling that the lexicon is told is granted to the symbol that has it as its name. -/
theorem exists_granted_of_told (h : rules.grammar options = .ok g) {spelling : String × Bool}
    (hTold : spelling ∈ g.told rules) :
    ∃ r : Registration, r.IsGranted (g.registrations rules) ∧ r.spelling = spelling.1.toList := by
  obtain ⟨-, hNames⟩ := records_of_rules h
  have hMem : g.request spelling ∈ g.registrations rules := List.mem_map_of_mem hTold
  obtain ⟨r, hGranted, hSymbol⟩ :=
    Registration.exists_isGranted hMem (hNames _ hMem).1
  exact ⟨r, hGranted, ((hNames r hGranted.mem).symbol_eq_iff (hNames _ hMem)).mp hSymbol⟩

/-- Of the registrations of one spelling the first is granted, and no other. -/
theorem isGranted_iff (h : rules.grammar options = .ok g) (hMem : r ∈ g.registrations rules) :
    r.IsGranted (g.registrations rules) ↔
      (g.registrations rules).find? (fun q => q.spelling == r.spelling) = some r := by
  obtain ⟨-, hNames⟩ := records_of_rules h
  have hSame : ∀ q ∈ g.registrations rules,
      (q.symbol == r.symbol && !q.spelling.isEmpty) = (q.spelling == r.spelling) := by
    intro q hq
    have hSymbol := (hNames q hq).symbol_eq_iff (hNames r hMem)
    rw [Bool.eq_iff_iff]
    simp [hSymbol, (hNames q hq).1]
  rw [Registration.IsGranted, List.find?_congr hSame]

/-! ### Spellings that parselets use -/

/-- What a declaration about parselets leaves behind: the spellings that were kept for the lexicon
before, and those that it mentions itself unless they are names of abstract kinds. -/
structure Notes (g g' : Grammar) (texts : List String) : Prop where
  kept : g.spellings ⊆ g'.spellings
  noted : ∀ s ∈ texts, s ≠ "" → s.toList.head? ≠ some '#' → s ∈ g'.spellings

variable {texts texts' : List String} {g'' : Grammar}

theorem Notes.refl (g : Grammar) : g.Notes g [] := ⟨List.Subset.refl _, List.forall_mem_nil _⟩

theorem Notes.trans (h : g.Notes g' texts) (h' : g'.Notes g'' texts') :
    g.Notes g'' (texts ++ texts') := by
  refine ⟨List.Subset.trans h.kept h'.kept, fun s hMem hSome hMark => ?_⟩
  rcases List.mem_append.mp hMem with hFirst | hSecond
  · exact h'.kept (h.noted s hFirst hSome hMark)
  · exact h'.noted s hSecond hSome hMark

/-- Nothing else about a grammar matters. -/
theorem Notes.keep (h : g.Notes g' texts) (hSame : g''.spellings = g'.spellings) :
    g.Notes g'' texts :=
  ⟨hSame ▸ h.kept, hSame ▸ h.noted⟩

theorem notes_noteSpelling (g : Grammar) (spelling : String) :
    g.Notes (g.noteSpelling spelling) [spelling] := by
  unfold noteSpelling
  split
  · next hKnown =>
    refine ⟨List.Subset.refl _, List.forall_mem_singleton.mpr fun hSome hMark => ?_⟩
    simpa [hSome, hMark] using hKnown
  · exact ⟨List.subset_append_left _ _, by simp⟩

theorem notes_useSpelling {spelling : String} {symbol : Symbol}
    (h : g.useSpelling spelling = .ok (symbol, g')) : g.Notes g' [spelling] := by
  simp only [useSpelling, Except.bind_eq_ok_iff, Prod.exists] at h
  obtain ⟨other, symbols, -, hGrammar⟩ := h
  cases hGrammar
  have hNoted := notes_noteSpelling { g with symbols } spelling
  exact ⟨hNoted.kept, hNoted.noted⟩

theorem notes_useSpelling? {spelling : Option String} {symbol : Option Symbol}
    (h : g.useSpelling? spelling = .ok (symbol, g')) : g.Notes g' spelling.toList := by
  cases spelling with
  | none =>
      cases h
      exact .refl g
  | some spelling =>
      simp only [useSpelling?, Except.bind_eq_ok_iff, Prod.exists] at h
      obtain ⟨used, u, hUsed, hGrammar⟩ := h
      cases hGrammar
      exact notes_useSpelling hUsed

theorem notes_registerPrefix {spelling : String} {parselet : PrefixParselet}
    (h : g.registerPrefix spelling parselet = .ok g') : g.Notes g' [spelling] := by
  simp only [registerPrefix, Except.bind_eq_ok_iff, Prod.exists] at h
  obtain ⟨symbol, u, hUsed, hGrammar⟩ := h
  cases hGrammar
  exact (notes_useSpelling hUsed).keep rfl

theorem notes_registerInfix {spelling : String} {power : BindingPower} {form : InfixForm}
    (h : g.registerInfix spelling power form = .ok g') : g.Notes g' [spelling] := by
  simp only [registerInfix, Except.bind_eq_ok_iff, Prod.exists] at h
  obtain ⟨symbol, u, hUsed, hGrammar⟩ := h
  cases hGrammar
  exact (notes_useSpelling hUsed).keep rfl

end Grammar

/-- The spellings that a declaration about parselets mentions, in the order in which they are used.
A symbol of its own is none, even if it is kept for the lexicon under its name. -/
def Declaration.texts : Declaration → List String
  | .handle _ => []
  | .spelling text | .name text | .number text _ | .boolean text | .string text _
  | .prefixOperator text _ | .postfixOperator text _ | .infixOperator text _ _ | .lambda text _
  | .customPrefix text _ | .customInfix text _ _ | .customStatement text _ => [text]
  | .ternary first second _ => [second] ++ [first]
  | .group opening closing separator _ => [closing] ++ separator.toList ++ [opening]
  | .call opening closing separator _ => [closing] ++ [separator] ++ [opening]
  | .block opening terminator separator _ => [terminator] ++ separator.toList ++ [opening]

namespace Grammar

variable {g g' : Grammar} {rules : Rules} {options : Options}

/-- A declaration keeps every spelling that it mentions. -/
theorem notes_declare {declaration : Declaration} (h : g.declare declaration = .ok g') :
    g.Notes g' declaration.texts := by
  cases declaration with
  | spelling spelling =>
      simp only [declare, Except.bind_eq_ok_iff, Prod.exists] at h
      obtain ⟨symbol, u, hUsed, hGrammar⟩ := h
      cases hGrammar
      exact notes_useSpelling hUsed
  | handle symbol =>
      cases h
      exact ⟨(notes_noteSpelling g _).kept, List.forall_mem_nil _⟩
  | name | number | boolean | string | prefixOperator | customPrefix =>
      exact notes_registerPrefix h
  | postfixOperator | infixOperator | lambda | customInfix => exact notes_registerInfix h
  | ternary first second power =>
      simp only [declare, Except.bind_eq_ok_iff, Prod.exists] at h
      obtain ⟨symbol, u, hSecond, hFirst⟩ := h
      exact (notes_useSpelling hSecond).trans (notes_registerInfix hFirst)
  | group opening closing separator wrapped =>
      simp only [declare, Except.bind_eq_ok_iff, Prod.exists] at h
      obtain ⟨closing, u, hClosing, separator, v, hSeparator, hOpening⟩ := h
      exact ((notes_useSpelling hClosing).trans (notes_useSpelling? hSeparator)).trans
        (notes_registerPrefix hOpening)
  | call opening closing separator power =>
      simp only [declare, Except.bind_eq_ok_iff, Prod.exists] at h
      obtain ⟨closing, u, hClosing, separator, v, hSeparator, hOpening⟩ := h
      exact ((notes_useSpelling hClosing).trans (notes_useSpelling hSeparator)).trans
        (notes_registerInfix hOpening)
  | block opening terminator separator wrap =>
      simp only [declare, Except.bind_eq_ok_iff, Prod.exists] at h
      obtain ⟨terminator, u, hTerminator, separator, v, hSeparator, hOpening⟩ := h
      exact ((notes_useSpelling hTerminator).trans (notes_useSpelling? hSeparator)).trans
        (notes_registerPrefix hOpening)
  | customStatement symbol parse =>
      simp only [declare, Except.bind_eq_ok_iff, Prod.exists] at h
      obtain ⟨symbol, u, hUsed, hGrammar⟩ := h
      cases hGrammar
      exact (notes_useSpelling hUsed).keep rfl

/-- Every spelling that the parselets of some rules mention is kept for the lexicon. -/
theorem mem_spellings_of_rules (h : rules.grammar options = .ok g) {declaration : Declaration}
    (hMem : declaration ∈ rules.declarations) {s : String} (hText : s ∈ declaration.texts)
    (hMark : s.toList.head? ≠ some '#') (hSome : s ≠ "") : s ∈ g.spellings := by
  simp only [Rules.grammar, Except.bind_eq_ok_iff] at h
  obtain ⟨u, -, v, hDeclared, hLearned⟩ := h
  have hNoted : ∀ d ∈ rules.declarations, s ∈ d.texts → s ∈ v.spellings := by
    refine Except.foldlM_consumed
      (motive := fun done w => ∀ d ∈ done, s ∈ d.texts → s ∈ w.spellings) ?_ []
      (List.forall_mem_nil _) hDeclared
    intro done w d w' hw hStep other hOther hMention
    have hNotes := notes_declare hStep
    rcases List.mem_append.mp hOther with hBefore | hLast
    · exact hNotes.kept (hw other hBefore hMention)
    · rw [List.mem_singleton.mp hLast] at hMention
      exact hNotes.noted s hMention hSome hMark
  rw [spellings_learnSpellings hLearned]
  exact hNoted declaration hMem hText

end Grammar

end Precedence
