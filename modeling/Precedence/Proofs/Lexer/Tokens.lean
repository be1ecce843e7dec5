import Precedence.Lexer.Lexicon
import Precedence.Parse.Session

/-!
The tokens of a source. Each but the last was recognised at a cursor of the source, so what can be
said of all tokens is what can be said of recognising one; and the text of a token is what was read
from its cursor on.
-/
namespace Precedence

namespace Text

/-- The text between two offsets is what stands between them. -/
theorem slice?_append (before text after : List Char) :
    slice? (byteLength before) (byteLength before + byteLength text) (before ++ text ++ after) =
      some text := by
  rw [slice?, if_pos (Nat.le_add_right _ _), List.append_assoc, dropBytes?_byteLength_append,
    Option.bind_some, Nat.add_sub_cancel_left, takeBytes?_byteLength_append]

end Text

namespace Cursor

/-- A cursor has been reached by reading a source: its offset is the length of what was read. -/
def IsIn (source : List Char) (c : Cursor) : Prop :=
  ∃ read, source = read ++ c.rest ∧ c.offset = Text.byteLength read

theorem isIn_ofSource (source : List Char) : (Cursor.ofSource source).IsIn source := ⟨[], rfl, rfl⟩

theorem offset_advanceBy (c : Cursor) (n : Nat) :
    (c.advanceBy n).offset = c.offset + Text.byteLength (c.rest.take n) := by
  induction n generalizing c with
  | zero => simp [advanceBy]
  | succ n ih =>
      rw [advanceBy]
      cases hRest : c.rest with
      | nil => simp
      | cons x rest =>
          rw [List.isEmpty_cons, if_neg Bool.false_ne_true, ih, rest_advance, hRest]
          simp [advance, hRest, Nat.add_assoc]

theorem IsIn.advanceBy {source : List Char} {c : Cursor} (h : c.IsIn source) (n : Nat) :
    (c.advanceBy n).IsIn source := by
  obtain ⟨read, hSource, hOffset⟩ := h
  refine ⟨read ++ c.rest.take n, ?_, ?_⟩
  · rw [rest_advanceBy, List.append_assoc, List.take_append_drop, hSource]
  · rw [offset_advanceBy, Text.byteLength_append, hOffset]

/-- The payload of a token that covers everything it was read from is what was read. -/
theorem IsIn.payload_tokenTo {source : List Char} {c : Cursor} (h : c.IsIn source) (n : Nat)
    (symbol : Symbol) : (c.tokenTo (c.advanceBy n) symbol).payload source = c.rest.take n := by
  obtain ⟨read, hSource, hOffset⟩ := h
  have hSlice := Text.slice?_append read (c.rest.take n) (c.rest.drop n)
  rw [List.append_assoc, List.take_append_drop, ← hSource, ← hOffset, ← offset_advanceBy] at hSlice
  simp only [Token.payload, tokenTo, Token.covering, rangeTo, Span.slice, hSlice, Option.getD_some]

end Cursor

namespace Lexicon

theorem isIn_skipFrom (lx : Lexicon) {source : List Char} (reported : List Message) {c : Cursor}
    (h : c.IsIn source) : (lx.skipFrom reported c).1.IsIn source := by
  fun_induction skipFrom lx reported c with
  | case1 => exact h
  | case2 => exact h
  | case3 reported c reading hEnd hStill ih => exact ih (h.advanceBy _)

/-- A token that was recognised at a cursor of a source, with at least the messages about it. -/
structure Finds (lx : Lexicon) (source : List Char) (c : Cursor) (lexeme : Lexeme) : Prop where
  isIn : c.IsIn source
  token : lexeme.token = (lx.recognise c).token
  messages : (lx.recognise c).messages ⊆ lexeme.messages

theorem exists_lexemesFrom_eq (lx : Lexicon) (source : List Char) (found : List Lexeme) (c : Cursor)
    (h : c.IsIn source) :
    ∃ body last, lx.lexemesFrom found c = found.reverse ++ body ++ [last] ∧
      last.token.symbol = .eof ∧ ∀ lexeme ∈ body, ∃ c, lx.Finds source c lexeme := by
  fun_induction lexemesFrom lx found c with
  | case1 found c skipped hEnd =>
      refine ⟨[], ⟨skipped.1.emptyToken .eof, skipped.2⟩, ?_, rfl, List.forall_mem_nil _⟩
      simp
  | case2 found c skipped hEnd r ih =>
      have hSkipped : skipped.1.IsIn source := lx.isIn_skipFrom [] h
      obtain ⟨body, last, hAll, hLast, hBody⟩ := ih (hSkipped.advanceBy _)
      refine ⟨⟨r.token, skipped.2 ++ r.messages⟩ :: body, last, ?_, hLast, ?_⟩
      · rw [hAll]
        simp
      · exact List.forall_mem_cons.mpr
          ⟨⟨skipped.1, hSkipped, rfl, List.subset_append_right _ _⟩, hBody⟩

/-- The tokens of a source are some that were recognised in it, and then the end. -/
theorem exists_lexemes_eq (lx : Lexicon) (source : List Char) :
    ∃ body last, lx.lexemes source = body ++ [last] ∧ last.token.symbol = .eof ∧
      ∀ lexeme ∈ body, ∃ c, lx.Finds source c lexeme := by
  obtain ⟨body, last, hAll, hRest⟩ :=
    lx.exists_lexemesFrom_eq source [] (.ofSource source) (Cursor.isIn_ofSource source)
  exact ⟨body, last, hAll, hRest⟩

end Lexicon

/-! ### What a token can be -/

/-- Whether a rule is one of the library's. -/
def LiteralRule.isBuiltIn : LiteralRule → Bool
  | .custom _ => false
  | _ => true

theorem LiteralRule.mem_of_readFirst {rules : List LiteralRule} {c : Cursor}
    {messages : List Message} {reading : LiteralReading}
    (h : readFirst c rules = (messages, some reading)) :
    ∃ rule ∈ rules, rule.read? c = some reading := by
  induction rules generalizing messages with
  | nil => simp [readFirst] at h
  | cons rule rules ih =>
      rw [readFirst] at h
      split at h
      · obtain ⟨other, hMem, hRead⟩ := ih h
        exact ⟨other, List.mem_cons_of_mem _ hMem, hRead⟩
      · next found hFound =>
        split at h
        · simp only [Prod.mk.injEq] at h
          obtain ⟨other, hMem, hRead⟩ := ih (Prod.ext rfl h.2)
          exact ⟨other, List.mem_cons_of_mem _ hMem, hRead⟩
        · cases h
          exact ⟨rule, List.mem_cons_self, hFound⟩

theorem PunctuatorSet.mem_of_findSpelling? {set : PunctuatorSet} {word : List Char}
    {symbol : Symbol} (h : set.findSpelling? word = some symbol) :
    ∃ p ∈ set.entries, p.symbol = symbol := by
  obtain ⟨p, hEither, rfl⟩ := Option.map_eq_some_iff.mp h
  rcases Option.or_eq_some_iff.mp hEither with hExact | ⟨-, hAnyCase⟩
  · exact ⟨p, List.mem_of_find?_eq_some hExact, rfl⟩
  · exact ⟨p, List.mem_of_find?_eq_some hAnyCase, rfl⟩

namespace Lexicon

/-- A lexicon whose rules for literals are the library's, and whose spellings are those of symbols
that are not predefined. -/
structure IsOrdinary (lx : Lexicon) : Prop where
  literals : ∀ rule ∈ lx.literals, rule.isBuiltIn = true
  punctuators : ∀ p ∈ lx.punctuators.entries, p.symbol.isPredefined = false

/-- What recognising a token can find: a number, a token that is no number, or a character that
starts no token and is reported. -/
inductive Recognises (lx : Lexicon) (c : Cursor) (r : Recognition) : Prop
  | number (format : NumberFormat) (hMem : .number format ∈ lx.literals)
      (hStarts : format.starts c.rest = true)
      (hToken : r.token = (LiteralRule.readNumber format c).token)
      (hMessages : (LiteralRule.readNumber format c).messages ⊆ r.messages)
  | other (hEnd : r.token.symbol ≠ .eof) (hNumber : r.token.symbol ≠ .number)
      (hInvalid : r.token.symbol ≠ .invalid)
  | invalid (hInvalid : r.token.symbol = .invalid) (hReported : ∃ m ∈ r.messages, m.isError = true)

variable {lx : Lexicon}

/-- Spellings are of symbols that have no other tokens. -/
theorem IsOrdinary.symbol_ne (h : lx.IsOrdinary) {p : Punctuator}
    (hMem : p ∈ lx.punctuators.entries) :
    p.symbol ≠ .eof ∧ p.symbol ≠ .number ∧ p.symbol ≠ .invalid := by
  have hOrdinary := h.punctuators p hMem
  refine ⟨?_, ?_, ?_⟩
  all_goals
    intro hSymbol
    rw [hSymbol] at hOrdinary
    cases hOrdinary

theorem recognises_of_symbol (symbol : Symbol) {c : Cursor} {r : Recognition}
    (hToken : r.token.symbol = symbol)
    (h : symbol ≠ .eof ∧ symbol ≠ .number ∧ symbol ≠ .invalid) : lx.Recognises c r := by
  subst hToken
  exact .other h.1 h.2.1 h.2.2

theorem IsOrdinary.recognises_literal (h : lx.IsOrdinary) {c : Cursor} {messages : List Message}
    {reading : LiteralReading}
    (hRead : LiteralRule.readFirst c lx.literals = (messages, some reading)) :
    lx.Recognises c ⟨reading.token, messages ++ reading.messages, reading.width⟩ := by
  obtain ⟨rule, hMem, hRule⟩ := LiteralRule.mem_of_readFirst hRead
  cases rule with
  | number format =>
      rw [LiteralRule.read?] at hRule
      split at hRule
      · next hStarts =>
        cases hRule
        exact .number format hMem hStarts rfl (List.subset_append_right _ _)
      · cases hRule
  | string opening closing escape =>
      rw [LiteralRule.read?] at hRule
      split at hRule
      · cases hRule
        exact recognises_of_symbol .string rfl (by decide)
      · cases hRule
  | boolean ignoreCase =>
      obtain ⟨word, -, rfl⟩ := Option.map_eq_some_iff.mp hRule
      exact recognises_of_symbol .boolean rfl (by decide)
  | custom read? => cases h.literals _ hMem

theorem IsOrdinary.recognises_name (h : lx.IsOrdinary) (c : Cursor) :
    lx.Recognises c (lx.recogniseName c) := by
  have hToken : (lx.recogniseName c).token.symbol =
      (lx.punctuators.findSpelling? (c.rest.take (lx.names.read c).width)).getD .name := rfl
  cases hWord : lx.punctuators.findSpelling? (c.rest.take (lx.names.read c).width) with
  | none =>
      rw [hWord, Option.getD_none] at hToken
      exact recognises_of_symbol .name hToken (by decide)
  | some symbol =>
      rw [hWord, Option.getD_some] at hToken
      obtain ⟨p, hMem, rfl⟩ := PunctuatorSet.mem_of_findSpelling? hWord
      exact recognises_of_symbol p.symbol hToken (h.symbol_ne hMem)

theorem recognises_invalid (c : Cursor) : lx.Recognises c (recogniseInvalid c) :=
  .invalid rfl ⟨_, List.mem_singleton_self _, rfl⟩

theorem Recognises.append {c : Cursor} {r : Recognition} (h : lx.Recognises c r)
    (messages : List Message) : lx.Recognises c { r with messages := messages ++ r.messages } := by
  cases h with
  | number format hMem hStarts hToken hMessages =>
      exact .number format hMem hStarts hToken
        (List.Subset.trans hMessages (List.subset_append_right _ _))
  | other hEnd hNumber hInvalid => exact .other hEnd hNumber hInvalid
  | invalid hInvalid hReported =>
      obtain ⟨m, hMem, hError⟩ := hReported
      exact .invalid hInvalid ⟨m, List.mem_append_right _ hMem, hError⟩

/-- Only the end of the input makes a token of the end. -/
theorem Recognises.symbol_ne_eof {c : Cursor} {r : Recognition} (h : lx.Recognises c r) :
    r.token.symbol ≠ .eof := by
  cases h with
  | number format _ _ hToken =>
      have hNumber : (LiteralRule.readNumber format c).token.symbol = .number := rfl
      rw [hToken, hNumber]
      decide
  | other hEnd => exact hEnd
  | invalid hInvalid =>
      rw [hInvalid]
      decide

/-- A character that starts no token is reported. -/
theorem Recognises.reported_of_invalid {c : Cursor} {r : Recognition} (h : lx.Recognises c r)
    (hInvalid : r.token.symbol = .invalid) : ∃ m ∈ r.messages, m.isError = true := by
  cases h with
  | number format _ _ hToken =>
      rw [hToken] at hInvalid
      cases hInvalid
  | other _ _ hValid => exact absurd hInvalid hValid
  | invalid _ hReported => exact hReported

/-- Recognising finds nothing else in an ordinary lexicon. -/
theorem IsOrdinary.recognises (h : lx.IsOrdinary) (c : Cursor) :
    lx.Recognises c (lx.recognise c) := by
  unfold recognise
  split
  · next hRead => exact h.recognises_literal hRead
  · apply Recognises.append
    split
    · next p hFound =>
      exact recognises_of_symbol p.symbol rfl (h.symbol_ne (List.mem_of_find?_eq_some hFound))
    · split
      · exact h.recognises_name c
      · exact recognises_invalid c

end Lexicon

theorem Session.ending_ofSource (lx : Lexicon) (source : List Char) :
    (Session.ofSource lx source).ending.symbol = .eof := by
  obtain ⟨body, last, hAll, hLast, -⟩ := lx.exists_lexemes_eq source
  simp only [ofSource, ofLexemes, hAll, List.getLast?_concat, Option.getD_some, hLast]

end Precedence
