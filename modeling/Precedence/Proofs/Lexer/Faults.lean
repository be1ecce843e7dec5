import Precedence.Proofs.Lexer.Sentinels
import Precedence.Proofs.Session.Requests

/-!
The codes of what the lexer reports. The library's rules report faults of the lexer alone, and a
character that starts no token is among them wherever a token was made of it.
-/
namespace Precedence

/-- What the lexer reports has one of the codes that are the lexer's. -/
theorem LexicalFault.isOfLexer_message (f : LexicalFault) (range : SourceRange) :
    (f.message range).isOfLexer = true := by
  cases f <;> rfl

section

variable {c : Cursor}

theorem IgnoreRule.isOfLexer_read? {rule : IgnoreRule} (hBuiltIn : rule.isBuiltIn = true)
    {reading : Reading} (h : rule.read? c = some reading) :
    ∀ m ∈ reading.messages, m.isOfLexer = true := by
  cases rule with
  | custom read? => cases hBuiltIn
  | blockComment opening closing =>
      obtain ⟨-, ⟨⟩⟩ := Option.ite_none_right_eq_some.mp h
      simp only [readBlockComment]
      split
      · exact List.forall_mem_nil _
      · exact List.forall_mem_singleton.mpr (LexicalFault.isOfLexer_message _ _)
  | _ =>
      obtain ⟨-, ⟨⟩⟩ := Option.ite_none_right_eq_some.mp h
      exact List.forall_mem_nil _

theorem IgnoreRule.isOfLexer_readFirst {rules : List IgnoreRule}
    (hBuiltIn : ∀ rule ∈ rules, rule.isBuiltIn = true) :
    ∀ m ∈ (readFirst c rules).messages, m.isOfLexer = true := by
  induction rules with
  | nil => exact List.forall_mem_nil _
  | cons rule rules ih =>
      obtain ⟨hRule, hRules⟩ := List.forall_mem_cons.mp hBuiltIn
      rw [readFirst]
      split
      · exact ih hRules
      · next reading hRead =>
        have hReading := isOfLexer_read? hRule hRead
        split
        · exact List.forall_mem_append.mpr ⟨hReading, ih hRules⟩
        · exact hReading

theorem LiteralRule.isOfLexer_read? {rule : LiteralRule} (hBuiltIn : rule.isBuiltIn = true)
    {reading : LiteralReading} (h : rule.read? c = some reading) :
    ∀ m ∈ reading.messages, m.isOfLexer = true := by
  cases rule with
  | number format =>
      obtain ⟨-, ⟨⟩⟩ := Option.ite_none_right_eq_some.mp h
      simp only [readNumber]
      split
      · exact List.forall_mem_nil _
      · exact List.forall_mem_singleton.mpr (LexicalFault.isOfLexer_message _ _)
  | string opening closing escape =>
      obtain ⟨-, ⟨⟩⟩ := Option.ite_none_right_eq_some.mp h
      simp only [readString]
      split
      · exact List.forall_mem_nil _
      · exact List.forall_mem_singleton.mpr (LexicalFault.isOfLexer_message _ _)
  | boolean ignoreCase =>
      obtain ⟨word, -, rfl⟩ := Option.map_eq_some_iff.mp h
      exact List.forall_mem_nil _
  | custom read? => cases hBuiltIn

end

namespace Lexicon

variable {lx : Lexicon} (hBuiltIn : lx.isBuiltIn = true)

include hBuiltIn

theorem isOfLexer_skip (c : Cursor) : ∀ m ∈ (lx.skip c).2, m.isOfLexer = true := by
  have hIgnores := isBuiltIn_of_mem_ignores hBuiltIn
  suffices h : ∀ reported : List Message, (∀ m ∈ reported, m.isOfLexer = true) →
      ∀ m ∈ (lx.skipFrom reported c).2, m.isOfLexer = true from h [] (List.forall_mem_nil _)
  intro reported hReported
  fun_induction skipFrom lx reported c with
  | case1 => exact hReported
  | case2 =>
      exact List.forall_mem_append.mpr ⟨hReported, IgnoreRule.isOfLexer_readFirst hIgnores⟩
  | case3 reported c reading hMore hSome ih =>
      exact ih (List.forall_mem_append.mpr ⟨hReported, IgnoreRule.isOfLexer_readFirst hIgnores⟩)

theorem isOfLexer_recognise {c : Cursor} (hMore : c.rest ≠ []) :
    ∀ m ∈ (lx.recognise c).messages, m.isOfLexer = true := by
  rcases recognise_cases hBuiltIn hMore with
    ⟨rule, hMem, reading, hRule, hFound⟩ | ⟨n, symbol, hFound⟩ | hFound
  all_goals rw [hFound]
  · exact LiteralRule.isOfLexer_read? (isBuiltIn_of_mem_literals hBuiltIn rule hMem) hRule
  · exact List.forall_mem_nil _
  · exact List.forall_mem_singleton.mpr (LexicalFault.isOfLexer_message _ _)

variable {c : Cursor} {lexemes : List Lexeme}

/-- Everything that is reported about a source is a fault of the lexer. -/
theorem Reads.isOfLexer (h : lx.Reads c lexemes) :
    ∀ lexeme ∈ lexemes, ∀ m ∈ lexeme.messages, m.isOfLexer = true := by
  induction h with
  | ending hEnd => exact List.forall_mem_singleton.mpr (isOfLexer_skip hBuiltIn _)
  | next hMore hRest ih =>
      exact List.forall_mem_cons.mpr ⟨List.forall_mem_append.mpr
        ⟨isOfLexer_skip hBuiltIn _, isOfLexer_recognise hBuiltIn hMore⟩, ih⟩

/-- A character that starts no token is reported, unless its kind has a spelling. -/
theorem Reads.reported_of_invalid (h : lx.Reads c lexemes)
    (hSpellings : ∀ p ∈ lx.punctuators.entries, p.symbol ≠ .invalid) :
    ∀ lexeme ∈ lexemes, lexeme.token.symbol = .invalid →
      ∃ m ∈ lexeme.messages, m.isError = true := by
  induction h with
  | ending hEnd =>
      refine List.forall_mem_singleton.mpr fun hInvalid => ?_
      cases hInvalid
  | @next c lexemes hMore hRest ih =>
      refine List.forall_mem_cons.mpr ⟨fun hInvalid => ?_, ih⟩
      dsimp only at hInvalid ⊢
      rcases recognise_of_sentinel hBuiltIn hMore with ⟨p, hMem, hSymbol⟩ | hOther | hFound
      · exact absurd (hSymbol.trans hInvalid) (hSpellings p hMem)
      · rw [hInvalid] at hOther
        exact absurd (by decide) hOther
      · rw [hFound]
        exact ⟨_, List.mem_append_right _ List.mem_cons_self, rfl⟩

end Lexicon

end Precedence
