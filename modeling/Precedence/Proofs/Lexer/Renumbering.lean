import Precedence.Proofs.Isolation.Tokens
import Precedence.Proofs.Lexer.Iteration

/-!
Lexers that differ in nothing but the numbers of their symbols. Each has a table of its own, and
what the rules of one find, the rules of the other find at the same place, with a symbol of the same
name. Then whatever both lexers are at, they stay together: one step finds tokens that are alike,
reports the same and leaves the cursors at one place, so a run of one is a run of the other.
-/
namespace Precedence

/-- Two symbols have one name, each in its own table. -/
def SymbolTable.SameName (t t' : SymbolTable) (s s' : Symbol) : Prop := t.name s = t'.name s'

/-- Two tokens differ in the number of their symbol at most. -/
structure Token.Alike (t t' : SymbolTable) (τ τ' : Token) : Prop where
  symbol : t.SameName t' τ.symbol τ'.symbol
  range : τ.range = τ'.range
  text : τ.text = τ'.text

/-- Two readings of a literal differ in the number of their symbol at most. -/
structure LiteralReading.Alike (t t' : SymbolTable) (r r' : LiteralReading) : Prop where
  token : Token.Alike t t' r.token r'.token
  width : r.width = r'.width
  messages : r.messages = r'.messages

/-- Two rules for literals apply at the same places, and read alike there. -/
def LiteralRule.Alike (t t' : SymbolTable) (rule rule' : LiteralRule) : Prop :=
  ∀ c, Option.Rel (LiteralReading.Alike t t') (rule.read? c) (rule'.read? c)

/-- Two spellings are equally long and belong to symbols of one name. -/
structure Punctuator.Alike (t t' : SymbolTable) (p p' : Punctuator) : Prop where
  symbol : t.SameName t' p.symbol p'.symbol
  length : p.length = p'.length

/-- Two recognised tokens differ in the number of their symbol at most. -/
structure Recognition.Alike (t t' : SymbolTable) (r r' : Recognition) : Prop where
  token : Token.Alike t t' r.token r'.token
  messages : r.messages = r'.messages
  width : r.width = r'.width

/-- Two lexicons skip the same, read names the same, and find literals and spellings alike. -/
structure Lexicon.Alike (t t' : SymbolTable) (lx lx' : Lexicon) : Prop where
  ignores : lx.ignores = lx'.ignores
  names : lx.names = lx'.names
  literals : List.Forall₂ (LiteralRule.Alike t t') lx.literals lx'.literals
  punctuatorAt? (c : Cursor) :
    Option.Rel (Punctuator.Alike t t') (lx.punctuatorAt? c) (lx'.punctuatorAt? c)
  findSpelling? (word : List Char) :
    Option.Rel (t.SameName t') (lx.punctuators.findSpelling? word)
      (lx'.punctuators.findSpelling? word)

/-- Two lexers are at one place of a source, have reported the same, and go on alike. -/
structure Lexer.Alike (t t' : SymbolTable) (l l' : Lexer) : Prop where
  lexicon : Lexicon.Alike t t' l.lexicon l'.lexicon
  cursor : l.cursor = l'.cursor
  started : l.started = l'.started
  finished : l.finished = l'.finished
  diagnostics : l.diagnostics = l'.diagnostics

variable {t t' : SymbolTable} {s s' : Symbol}

/-! ### Names -/

namespace SymbolTable

theorem sameName_of_isPredefined (h : s.isPredefined = true) : t.SameName t' s s := by
  have hLess : s.id < Symbol.predefinedNames.length := of_decide_eq_true h
  rw [SameName, t.name_eq_of_lt hLess, t'.name_eq_of_lt hLess]

/-- Symbols that a name is found as in two tables have that name. -/
theorem sameName_of_find? {text : String} (h : t.find? text = some s)
    (h' : t'.find? text = some s') : t.SameName t' s s' := by
  rw [SameName, name, name, find?_eq_some_iff.mp h, find?_eq_some_iff.mp h']

/-- The name of a predefined symbol is that of no other one. -/
theorem eq_of_name_eq {p : Symbol} (hPredefined : p.isPredefined = true)
    (h : t.name s = t.name p) : s = p := by
  have hLess : p.id < Symbol.predefinedNames.length := of_decide_eq_true hPredefined
  have hKnown : t.names.text? p.id = some (t.name p) := by
    obtain ⟨later, hLater⟩ := t.predefined
    rw [t.name_eq_of_lt hLess, Interning.text?, ← hLater, List.getElem?_append_left hLess,
      List.getElem?_eq_getElem hLess]
  have hFound : t.names.text? s.id = some (t.name p) := by
    rw [← h, name]
    cases hText : t.names.text? s.id with
    | some text => rfl
    | none =>
        -- A symbol without a name would be called what no predefined symbol is called.
        have hUnknown : "#unknown" ∉ Symbol.predefinedNames := by decide
        rw [name, hText, Option.getD_none, t.name_eq_of_lt hLess] at h
        exact absurd (h ▸ List.getElem_mem hLess) hUnknown
  rw [← find?_eq_some_iff] at hKnown hFound
  exact Option.some.inj (hFound.symm.trans hKnown)

/-- Symbols of one name are the same predefined symbol or none. -/
theorem SameName.eq_iff (h : t.SameName t' s s') {p : Symbol}
    (hPredefined : p.isPredefined = true) : s = p ↔ s' = p := by
  have hName : t.name p = t'.name p := sameName_of_isPredefined hPredefined
  constructor
  · rintro rfl
    exact eq_of_name_eq hPredefined (h.symm.trans hName)
  · rintro rfl
    exact eq_of_name_eq hPredefined (h.trans hName.symm)

end SymbolTable

/-- Of what two searches find alike, the first that finds anything has symbols of one name. -/
theorem Punctuator.rel_symbol_or {a b a' b' : Option Punctuator}
    (h : Option.Rel (Punctuator.Alike t t') a a')
    (hElse : Option.Rel (Punctuator.Alike t t') b b') :
    Option.Rel (t.SameName t') ((a.or b).map (·.symbol)) ((a'.or b').map (·.symbol)) := by
  cases h with
  | some hAlike => exact .some hAlike.symbol
  | none =>
      cases hElse with
      | some hAlike => exact .some hAlike.symbol
      | none => exact .none

theorem Cursor.alike_tokenTo (h : t.SameName t' s s') (c stop : Cursor) :
    Token.Alike t t' (c.tokenTo stop s) (c.tokenTo stop s') := ⟨h, rfl, rfl⟩

/-! ### Literals -/

namespace LiteralRule

/-- The rules of the library read literals with predefined symbols. -/
theorem isPredefined_of_read? {rule : LiteralRule} (hBuiltIn : rule.isBuiltIn = true) {c : Cursor}
    {reading : LiteralReading} (h : rule.read? c = some reading) :
    reading.token.symbol.isPredefined = true := by
  cases rule with
  | number format =>
      rw [read?] at h
      split at h
      · cases h
        rfl
      · cases h
  | string opening closing escape =>
      rw [read?] at h
      split at h
      · cases h
        rfl
      · cases h
  | boolean ignoreCase =>
      obtain ⟨word, -, rfl⟩ := Option.map_eq_some_iff.mp h
      rfl
  | custom read? => cases hBuiltIn

/-- A rule that reads predefined symbols alone is alike in all tables. -/
theorem alike_self {rule : LiteralRule}
    (h : ∀ c reading, rule.read? c = some reading → reading.token.symbol.isPredefined = true) :
    rule.Alike t t' rule := by
  intro c
  cases hRead : rule.read? c with
  | none => exact .none
  | some reading =>
      exact .some ⟨⟨SymbolTable.sameName_of_isPredefined (h c reading hRead), rfl, rfl⟩, rfl, rfl⟩

theorem alike_of_isBuiltIn {rule : LiteralRule} (h : rule.isBuiltIn = true) :
    rule.Alike t t' rule :=
  alike_self fun _ _ hRead => isPredefined_of_read? h hRead

theorem alike_readFirst {rules rules' : List LiteralRule}
    (h : List.Forall₂ (LiteralRule.Alike t t') rules rules') (c : Cursor) :
    (readFirst c rules).1 = (readFirst c rules').1 ∧
      Option.Rel (LiteralReading.Alike t t') (readFirst c rules).2 (readFirst c rules').2 := by
  induction h with
  | nil => exact ⟨rfl, .none⟩
  | @cons rule rule' rules rules' hFirst _ ih =>
      rw [readFirst, readFirst]
      have hRead := hFirst c
      generalize rule.read? c = found at hRead
      generalize rule'.read? c = found' at hRead
      cases hRead with
      | none => exact ih
      | @some reading reading' hAlike =>
          simp only [← hAlike.width, ← hAlike.messages]
          split
          · exact ⟨congrArg (reading.messages ++ ·) ih.1, ih.2⟩
          · exact ⟨rfl, .some hAlike⟩

end LiteralRule

/-! ### One token -/

namespace Lexicon

variable {lx lx' : Lexicon}

theorem skipFrom_congr (h : lx.ignores = lx'.ignores) (reported : List Message) (c : Cursor) :
    lx.skipFrom reported c = lx'.skipFrom reported c := by
  fun_induction skipFrom lx reported c with
  | case1 reported c hEnd =>
      conv_rhs => rw [skipFrom, dif_pos hEnd]
  | case2 reported c reading hEnd hStill =>
      conv_rhs => rw [skipFrom, ← h, dif_neg hEnd, dif_pos hStill]
  | case3 reported c reading hEnd hMoves ih =>
      conv_rhs => rw [skipFrom, ← h, dif_neg hEnd, dif_neg hMoves]
      exact ih

variable (h : Lexicon.Alike t t' lx lx')

include h

theorem Alike.skip (c : Cursor) : lx.skip c = lx'.skip c := skipFrom_congr h.ignores [] c

theorem Alike.recogniseName (c : Cursor) :
    Recognition.Alike t t' (lx.recogniseName c) (lx'.recogniseName c) := by
  simp only [Lexicon.recogniseName, ← h.names]
  refine ⟨Cursor.alike_tokenTo ?_ _ _, rfl, rfl⟩
  have hWord := h.findSpelling? (c.rest.take (lx.names.read c).width)
  generalize lx.punctuators.findSpelling? _ = found at hWord
  generalize lx'.punctuators.findSpelling? _ = found' at hWord
  cases hWord with
  | none => exact SymbolTable.sameName_of_isPredefined rfl
  | some hName => exact hName

theorem Alike.recogniseOther (c : Cursor) :
    Recognition.Alike t t' (lx.recogniseOther c) (lx'.recogniseOther c) := by
  have hSpelling := h.punctuatorAt? c
  unfold Lexicon.recogniseOther
  generalize lx.punctuatorAt? c = found at hSpelling
  generalize lx'.punctuatorAt? c = found' at hSpelling
  cases hSpelling with
  | @some p p' hAlike =>
      simp only [← hAlike.length]
      exact ⟨Cursor.alike_tokenTo hAlike.symbol _ _, rfl, rfl⟩
  | none =>
      simp only [← h.names]
      split
      · exact h.recogniseName c
      · exact ⟨⟨SymbolTable.sameName_of_isPredefined rfl, rfl, rfl⟩, rfl, rfl⟩

theorem Alike.recognise (c : Cursor) :
    Recognition.Alike t t' (lx.recognise c) (lx'.recognise c) := by
  have hOther := h.recogniseOther c
  obtain ⟨hMessages, hFound⟩ := LiteralRule.alike_readFirst h.literals c
  unfold Lexicon.recognise
  generalize LiteralRule.readFirst c lx.literals = read at hMessages hFound
  generalize LiteralRule.readFirst c lx'.literals = read' at hMessages hFound
  obtain ⟨messages, found⟩ := read
  obtain ⟨messages', found'⟩ := read'
  obtain rfl : messages = messages' := hMessages
  cases hFound with
  | some hAlike => exact ⟨hAlike.token, congrArg (messages ++ ·) hAlike.messages, hAlike.width⟩
  | none => exact ⟨hOther.token, congrArg (messages ++ ·) hOther.messages, hOther.width⟩

/-- The next tokens are alike, with the same messages, and end at one place. -/
theorem Alike.next (c : Cursor) :
    Token.Alike t t' (lx.next c).1.token (lx'.next c).1.token ∧
      (lx.next c).1.messages = (lx'.next c).1.messages ∧ (lx.next c).2 = (lx'.next c).2 := by
  have hFound := h.recognise (lx.skip c).1
  unfold Lexicon.next
  rw [← h.skip c]
  dsimp only
  split
  · exact ⟨⟨SymbolTable.sameName_of_isPredefined rfl, rfl, rfl⟩, rfl, rfl⟩
  · exact ⟨hFound.token, congrArg ((lx.skip c).2 ++ ·) hFound.messages,
      congrArg (lx.skip c).1.advanceBy hFound.width⟩

end Lexicon

/-! ### One step, and a run -/

namespace Lexer

variable {l l' m : Lexer}

theorem alike_ofSource {lx lx' : Lexicon} (h : Lexicon.Alike t t' lx lx') (source : List Char) :
    Lexer.Alike t t' (ofSource lx source) (ofSource lx' source) :=
  ⟨h, rfl, rfl, rfl, rfl⟩

theorem Alike.skipInvalid (h : Lexer.Alike t t' l l') :
    Lexer.Alike t t' l.skipInvalid l'.skipInvalid :=
  ⟨h.lexicon, congrArg Cursor.advance h.cursor, h.started, h.finished, h.diagnostics⟩

/-- Lexers that are alike find tokens that are alike, and stay alike. -/
theorem Alike.next (h : Lexer.Alike t t' l l') :
    Token.Alike t t' l.next.1 l'.next.1 ∧ Lexer.Alike t t' l.next.2 l'.next.2 := by
  obtain ⟨hToken, hMessages, hCursor⟩ := h.lexicon.next l.cursor
  unfold Lexer.next
  rw [← h.started, ← h.cursor, ← h.diagnostics]
  split
  · refine ⟨hToken, h.lexicon, hCursor, rfl, h.finished, ?_⟩
    exact congrArg l.diagnostics.append hMessages
  · exact ⟨⟨SymbolTable.sameName_of_isPredefined rfl, rfl, rfl⟩,
      h.lexicon, rfl, rfl, h.finished, rfl⟩

theorem Alike.yield? (h : Lexer.Alike t t' l l') :
    Option.Rel (Token.Alike t t') l.yield?.1 l'.yield?.1 ∧
      Lexer.Alike t t' l.yield?.2 l'.yield?.2 := by
  obtain ⟨hToken, hNext⟩ := h.next
  unfold Lexer.yield?
  rw [← h.finished]
  split
  · exact ⟨.none, h⟩
  · refine ⟨.some hToken, ?_⟩
    have hStep : Lexer.Alike t t'
        (if l.next.1.symbol = .invalid then l.next.2.skipInvalid else l.next.2)
        (if l'.next.1.symbol = .invalid then l'.next.2.skipInvalid else l'.next.2) := by
      simp only [← hToken.symbol.eq_iff (p := .invalid) rfl]
      split
      · exact hNext.skipInvalid
      · exact hNext
    have hEnd : (l.next.1.symbol == .eof) = (l'.next.1.symbol == .eof) := by
      rw [Bool.eq_iff_iff, beq_iff_eq, beq_iff_eq]
      exact hToken.symbol.eq_iff rfl
    exact ⟨hStep.lexicon, hStep.cursor, hStep.started, hEnd, hStep.diagnostics⟩

/-- What iterating a lexer yields, iterating one that is alike yields too, token by token and with
the same messages. -/
theorem Alike.yields {tokens : List Token} (h : Lexer.Alike t t' l l')
    (hYields : l.Yields tokens m) :
    ∃ tokens' m', l'.Yields tokens' m' ∧ List.Forall₂ (Token.Alike t t') tokens tokens' ∧
      Lexer.Alike t t' m m' := by
  induction hYields generalizing l' with
  | @done l m hNone =>
      obtain ⟨hTokens, hLast⟩ := h.yield?
      rw [hNone] at hTokens hLast
      generalize hPair : l'.yield? = pair at hTokens hLast
      obtain ⟨found, m'⟩ := pair
      cases hTokens
      exact ⟨[], m', .done hPair, .nil, hLast⟩
  | @next l m n τ tokens hFirst _ ih =>
      obtain ⟨hTokens, hThere⟩ := h.yield?
      rw [hFirst] at hTokens hThere
      generalize hPair : l'.yield? = pair at hTokens hThere
      obtain ⟨found, m'⟩ := pair
      cases hTokens with
      | @some _ τ' hToken =>
          obtain ⟨tokens', n', hRest, hLater, hLast⟩ := ih hThere
          exact ⟨τ' :: tokens', n', .next hPair hRest, .cons hToken hLater, hLast⟩

end Lexer

end Precedence
