import Precedence.Proofs.Lexer.Renumbering
import Precedence.Proofs.Lexer.Spellings

/-!
Grammars that are told the same spellings in another order. Symbols get other numbers then, and
spellings other places in the search; but of the spellings that mind the case no two of one length
stand at one place, so it does not matter which of them was told first. Only the order between one
that minds the case and one that does not decides what is found.
-/
namespace Precedence

/-! ### Places in a list -/

/-- An injective map keeps the place of every entry. -/
theorem List.idxOf_map_injective {α β : Type} [BEq α] [LawfulBEq α] [BEq β] [LawfulBEq β]
    {f : α → β}
    (hf : Function.Injective f) (l : List α) (a : α) : (l.map f).idxOf (f a) = l.idxOf a := by
  rw [List.idxOf, List.idxOf, List.findIdx_map]
  congr 1
  funext b
  rw [Function.comp_apply, Bool.eq_iff_iff, beq_iff_eq, beq_iff_eq]
  exact hf.eq_iff

/-- Some entries in a row are put into another order. The place of every other entry stays what it
was in comparison. -/
theorem List.idxOf_lt_of_perm {α : Type} [BEq α] [LawfulBEq α] {l l' : List α} (h : l.Perm l')
    (before after : List α) {a b : α} (hOther : a ∉ l ∨ b ∉ l)
    (hLess : (before ++ l ++ after).idxOf a < (before ++ l ++ after).idxOf b) :
    (before ++ l' ++ after).idxOf a < (before ++ l' ++ after).idxOf b := by
  have hMem (x : α) : x ∈ l' ↔ x ∈ l := h.symm.mem_iff
  have hLength : l'.length = l.length := h.symm.length_eq
  have hFront : a ∈ before → before.idxOf a < before.length := List.idxOf_lt_length_of_mem
  have hInside : b ∈ l → l.idxOf b < l.length := List.idxOf_lt_length_of_mem
  have hInside' : a ∈ l' → l'.idxOf a < l'.length := List.idxOf_lt_length_of_mem
  -- Which of the three parts an entry is in first is the same in both lists.
  simp only [List.idxOf_append, List.mem_append, hMem] at hLess hInside' ⊢
  grind

/-- Two lists of spellings tell a lexicon the same: each spelling is told first in the same way, and
which of two is told first is the same if one of them does not mind the case. -/
structure Reorders (told told' : List (String × Bool)) : Prop where
  first (text : String) : told'.find? (·.1 == text) = told.find? (·.1 == text)
  order {p q : String × Bool} : p.2 = true ∨ q.2 = true → told.idxOf p < told.idxOf q →
    told'.idxOf p < told'.idxOf q

/-- It does not matter in which order some spellings in a row are told that mind the case. -/
theorem reorders_of_perm {vocabulary vocabulary' : List String} (h : vocabulary.Perm vocabulary')
    (before after : List (String × Bool)) :
    Reorders (before ++ vocabulary.map (·, false) ++ after)
      (before ++ vocabulary'.map (·, false) ++ after) := by
  constructor
  · intro text
    have hMiddle (texts : List String) : (texts.map (·, false)).find? (·.1 == text) =
        if text ∈ texts then some (text, false) else none := by
      induction texts with
      | nil => rfl
      | cons first texts ih =>
          rw [List.map_cons, List.find?_cons]
          by_cases hFirst : first = text
          · simp [hFirst]
          · simp [beq_false_of_ne hFirst, ih, Ne.symm hFirst]
    simp only [List.find?_append, hMiddle, h.mem_iff]
  · intro p q hCase hLess
    refine List.idxOf_lt_of_perm (h.map (·, false)) before after ?_ hLess
    have hExact (r : String × Bool) (hr : r ∈ vocabulary.map (·, false)) : r.2 = false := by
      obtain ⟨text, -, rfl⟩ := List.mem_map.mp hr
      rfl
    rcases hCase with hp | hq
    · exact .inl fun hMem => by simp [hExact p hMem] at hp
    · exact .inr fun hMem => by simp [hExact q hMem] at hq

/-! ### Searches -/

namespace Grammar

variable {g g' : Grammar} {rules rules' : Rules} {options options' : Options} {p q : String × Bool}

theorem request_injective (g : Grammar) : Function.Injective g.request := by
  intro p q hSame
  simp only [request, Registration.mk.injEq, String.toList_inj] at hSame
  exact Prod.ext hSame.2.1 hSame.2.2

/-- A spelling is granted as it is told first. -/
theorem isGranted_request_iff (h : rules.grammar options = .ok g) :
    (g.request p).IsGranted (g.registrations rules) ↔
      (g.told rules).find? (·.1 == p.1) = some p := by
  have hFirst : (g.registrations rules).find? (fun q => q.spelling == (g.request p).spelling) =
      some (g.request p) ↔ (g.told rules).find? (·.1 == p.1) = some p := by
    have hSpelling : (fun q : Registration => q.spelling == (g.request p).spelling) ∘ g.request =
        (·.1 == p.1) := by
      funext q
      rw [Function.comp_apply, Bool.eq_iff_iff, beq_iff_eq, beq_iff_eq]
      exact String.toList_inj
    rw [registrations, List.find?_map, hSpelling, ← Option.map_some,
      (Option.map_injective g.request_injective).eq_iff]
  rw [← hFirst]
  constructor
  · intro hGranted
    exact (isGranted_iff h hGranted.mem).mp hGranted
  · intro hFound
    exact (isGranted_iff h (List.mem_of_find?_eq_some hFound)).mpr hFound

theorem outranks_request_iff :
    (g.request p).Outranks (g.registrations rules) (g.request q) ↔
      q.1.toList.length < p.1.toList.length ∨ q.1.toList.length = p.1.toList.length ∧
        (g.told rules).idxOf p < (g.told rules).idxOf q := by
  have hPlace (r : String × Bool) :
      (g.registrations rules).idxOf (g.request r) = (g.told rules).idxOf r :=
    List.idxOf_map_injective g.request_injective _ _
  rw [Registration.Outranks, hPlace, hPlace]
  rfl

/-- A property of spellings that are told, whatever the numbers of their symbols are: of the
spellings that mind the case and are equally long, only one has it. -/
structure IsTextual (g g' : Grammar) (stands stands' : Registration → Prop) : Prop where
  iff (p : String × Bool) : stands' (g'.request p) ↔ stands (g.request p)
  exact (p q : String × Bool) : p.2 = false → q.2 = false →
    p.1.toList.length = q.1.toList.length → stands (g.request p) → stands (g.request q) → p = q

/-- A spelling that minds the case is the text that it spells. -/
theorem toList_eq_of_spells {text : List Char} (hExact : p.2 = false)
    (h : (g.request p).Spells text) : p.1.toList = text := by
  rw [Registration.Spells, if_neg (by simp [request, hExact])] at h
  exact h.symm

theorem eq_of_spells {text : List Char} (hp : p.2 = false) (hq : q.2 = false)
    (h : (g.request p).Spells text) (h' : (g.request q).Spells text) : p = q := by
  refine Prod.ext (String.toList_inj.mp ?_) (hp.trans hq.symm)
  rw [toList_eq_of_spells hp h, toList_eq_of_spells hq h']

theorem isTextual_spellsBy (g g' : Grammar) (ignoreCase : Bool) (word : List Char) :
    g.IsTextual g' (Registration.SpellsBy ignoreCase word)
      (Registration.SpellsBy ignoreCase word) where
  iff _ := Iff.rfl
  exact _ _ hp hq _ h h' := eq_of_spells hp hq h.2 h'.2

theorem isTextual_matchesAt (hSame : g.lexicon.names = g'.lexicon.names) (c : Cursor) :
    g.IsTextual g' (g.lexicon.MatchesAt c) (g'.lexicon.MatchesAt c) where
  iff p := by
    rw [Lexicon.MatchesAt, Lexicon.MatchesAt, Lexicon.isWordLike, Lexicon.isWordLike, hSame]
    exact Iff.rfl
  exact p q hp hq hLength h h' := by
    have hFits : (g.request q).Spells (c.rest.take p.1.toList.length) := hLength ▸ h'.2
    exact eq_of_spells hp hq h.2 hFits

/-- Entries of one spelling are alike, since their symbols have it as their names. -/
theorem alike_of_spelling_eq (hRules : rules.grammar options = .ok g)
    (hRules' : rules'.grammar options' = .ok g') {p p' : Punctuator}
    (hp : p ∈ g.lexicon.punctuators.entries) (hp' : p' ∈ g'.lexicon.punctuators.entries)
    (hSpelling : p'.spelling = p.spelling) : Punctuator.Alike g.symbols g'.symbols p p' := by
  refine ⟨?_, by rw [p.length_eq, p'.length_eq, hSpelling]⟩
  have hName := spellsNames_of_rules hRules p hp
  have hName' := spellsNames_of_rules hRules' p' hp'
  rw [SymbolTable.SameName, SymbolTable.name, SymbolTable.name, hName, hName', Punctuator.text,
    Punctuator.text, hSpelling]

variable (hRules : rules.grammar options = .ok g) (hRules' : rules'.grammar options' = .ok g')
  (hTold : Reorders (g.told rules) (g'.told rules')) {stands stands' : Registration → Prop}

include hRules hRules' hTold

theorem isGranted_reorder : (g'.request p).IsGranted (g'.registrations rules') ↔
    (g.request p).IsGranted (g.registrations rules) := by
  rw [isGranted_request_iff hRules, isGranted_request_iff hRules', hTold.first]

/-- What a search comes to first, it comes to first when the spellings were told in another
order. -/
theorem leads_reorder (hTextual : g.IsTextual g' stands stands')
    (h : (g.request p).Leads (g.registrations rules) stands) :
    (g'.request p).Leads (g'.registrations rules') stands' := by
  constructor
  case granted => exact (isGranted_reorder hRules hRules' hTold).mpr h.granted
  case holds => exact (hTextual.iff p).mpr h.holds
  case outranks =>
    intro r hGranted hThere hOther
    obtain ⟨q, -, rfl⟩ := List.mem_map.mp hGranted.mem
    have hStands := (hTextual.iff q).mp hThere
    have hBefore := h.outranks (g.request q)
      ((isGranted_reorder hRules hRules' hTold).mp hGranted) hStands
      fun hSame => hOther (congrArg g'.request (g.request_injective hSame))
    rw [outranks_request_iff] at hBefore ⊢
    refine hBefore.imp_right fun ⟨hLength, hEarlier⟩ => ⟨hLength, hTold.order ?_ hEarlier⟩
    by_contra hExact
    simp only [not_or, Bool.not_eq_true] at hExact
    exact hOther (congrArg g'.request
      (hTextual.exact p q hExact.1 hExact.2 hLength.symm h.holds hStands).symm)

/-- A search finds the same spelling, under the same name, or nothing in both lexicons. -/
theorem find?_reorder (hTextual : g.IsTextual g' stands stands')
    {accepts accepts' : Punctuator → Bool}
    (hStands : ∀ p, accepts p = true ↔ stands p.registration)
    (hStands' : ∀ p, accepts' p = true ↔ stands' p.registration) :
    Option.Rel (Punctuator.Alike g.symbols g'.symbols)
      (g.lexicon.punctuators.entries.find? accepts)
      (g'.lexicon.punctuators.entries.find? accepts') := by
  obtain ⟨hRecords, hNames⟩ := records_of_rules hRules
  obtain ⟨hRecords', hNames'⟩ := records_of_rules hRules'
  cases hFound : g.lexicon.punctuators.entries.find? accepts with
  | none =>
      have hNone := (hRecords.find?_eq_none_iff hStands).mp hFound
      have hNone' : g'.lexicon.punctuators.entries.find? accepts' = none := by
        rw [hRecords'.find?_eq_none_iff hStands']
        intro r hGranted hThere
        obtain ⟨q, -, rfl⟩ := List.mem_map.mp hGranted.mem
        exact hNone _ ((isGranted_reorder hRules hRules' hTold).mp hGranted)
          ((hTextual.iff q).mp hThere)
      rw [hNone']
      exact .none
  | some p =>
      have hLeads := hRecords.leads_of_find? hStands hFound
      have hRequest := (hNames _ hLeads.granted.mem).request_eq
      rw [← hRequest] at hLeads
      obtain ⟨p', hFound', hSame⟩ := (hRecords'.find?_iff hStands').mpr
        (leads_reorder hRules hRules' hTold hTextual hLeads)
      have hSpelling : p'.spelling = p.spelling := by
        have hText := congrArg Registration.spelling hSame
        exact hText.trans String.toList_ofList
      rw [hFound']
      exact .some (alike_of_spelling_eq hRules hRules' (List.mem_of_find?_eq_some hFound)
        (List.mem_of_find?_eq_some hFound') hSpelling)

theorem findSpelling?_reorder (word : List Char) :
    Option.Rel (g.symbols.SameName g'.symbols) (g.lexicon.punctuators.findSpelling? word)
      (g'.lexicon.punctuators.findSpelling? word) := by
  have hExact := find?_reorder hRules hRules' hTold (isTextual_spellsBy g g' false word)
    PunctuatorSet.accepts_exact_iff PunctuatorSet.accepts_exact_iff
  have hAnyCase := find?_reorder hRules hRules' hTold (isTextual_spellsBy g g' true word)
    PunctuatorSet.accepts_any_case_iff PunctuatorSet.accepts_any_case_iff
  exact Punctuator.rel_symbol_or hExact hAnyCase

/-- Lexicons that are told the same spellings in another order are alike, if they skip and read
names and literals alike. -/
theorem alike_reorder (hIgnores : g.lexicon.ignores = g'.lexicon.ignores)
    (hSame : g.lexicon.names = g'.lexicon.names)
    (hLiterals : List.Forall₂ (LiteralRule.Alike g.symbols g'.symbols) g.lexicon.literals
      g'.lexicon.literals) :
    Lexicon.Alike g.symbols g'.symbols g.lexicon g'.lexicon where
  ignores := hIgnores
  names := hSame
  literals := hLiterals
  punctuatorAt? c := find?_reorder hRules hRules' hTold (isTextual_matchesAt hSame c)
    Lexicon.accepts_iff Lexicon.accepts_iff
  findSpelling? := findSpelling?_reorder hRules hRules' hTold

end Grammar

end Precedence
