import Precedence.Proofs.Engine.Termination
import Precedence.Proofs.Recovery.Concurrence

/-!
The recovery policy matters after an error alone. Two grammars that differ in nothing but their
policies parse a source to the same, unless both report an error; and then they report the same up
to the first.
-/
namespace Precedence

open Session

namespace Diagnostics

/-- The messages up to and including the first error. -/
def upToError (d : Diagnostics) : List Message := d.toList.take (d.toList.findIdx (·.isError) + 1)

/-- Messages that come behind an error make no difference. -/
theorem upToError_of_prefix {d d' : Diagnostics} (hGrows : d.toList <+: d'.toList)
    (h : d.hasErrors = true) : d'.upToError = d.upToError := by
  obtain ⟨later, hLater⟩ := hGrows
  have hLess : d.toList.findIdx (·.isError) < d.toList.length :=
    List.findIdx_lt_length.mpr (d.hasErrors_iff.mp h)
  rw [upToError, upToError, ← hLater, List.findIdx_append, if_pos hLess,
    List.take_append_of_le_length hLess]

end Diagnostics

namespace Grammar

/-- The grammar with another policy for what follows a statement without a boundary. -/
def withRecovery (g : Grammar) (recovery : RecoveryPolicy) : Grammar :=
  { g with options := { g.options with recovery } }

variable {g : Grammar} (recovery : RecoveryPolicy)

theorem withRecovery_withRecovery (earlier : RecoveryPolicy) :
    (g.withRecovery earlier).withRecovery recovery = g.withRecovery recovery :=
  rfl

/-- The policy is no concern of expressions. -/
theorem continueExpression_withRecovery (e : Engine) (threshold : BindingPower) (rounds : Nat)
    (left : NodeId) (s : Session) :
    (g.withRecovery recovery).continueExpression e threshold rounds left s =
      g.continueExpression e threshold rounds left s := by
  induction rounds generalizing left s with
  | zero => rfl
  | succ rounds ih =>
      simp only [continueExpression_succ, ih]
      rfl

theorem parseExpression_withRecovery (e : Engine) (threshold : BindingPower) (s : Session) :
    (g.withRecovery recovery).parseExpression e threshold s = g.parseExpression e threshold s := by
  simp only [parseExpression_eq, continueExpression_withRecovery]
  rfl

theorem parseStatement_withRecovery (e : Engine) (wrap : Bool) (s : Session) :
    (g.withRecovery recovery).parseStatement e wrap s = g.parseStatement e wrap s := by
  simp only [parseStatement_eq, parseExpression_withRecovery]
  rfl

/-- The engines of two policies concur. -/
theorem concurs_engine (hBuiltIn : g.hasBuiltInParselets = true) (rounds depth : Nat) :
    (g.engine rounds depth).Concurs ((g.withRecovery recovery).engine rounds depth) := by
  induction depth with
  | zero => exact ⟨rfl, rfl, fun _ _ => .none, fun _ _ => .none⟩
  | succ depth ih =>
      refine ⟨rfl, rfl, fun threshold s => ?_, fun wrap s => ?_⟩
      · simp only [engine, parseExpression_withRecovery]
        exact concur_parseExpression hBuiltIn ih threshold s
      · simp only [engine, parseStatement_withRecovery]
        exact concur_parseStatement hBuiltIn ih wrap s

theorem concur_parseRoot {e e' : Engine} (h : e.Concurs e') (s : Session) :
    Concur NodeId.IsIn s (g.parseRoot e s) ((g.withRecovery recovery).parseRoot e' s) := by
  refine .ite (fun _ => h.expression .lowest s) fun _ => .after s.proceeds_consume ?_
  exact .ite (fun _ => h.block _ _ _ _ _) fun _ => h.expression .lowest _

theorem proceeds_checkEnd (g : Grammar) (s : Session) : s.Proceeds (g.checkEnd s) := by
  unfold checkEnd
  split
  · rw [lookahead_zero]
    dsimp only
    split
    · exact s.proceeds_peeked
    · exact s.proceeds_peeked.trans (proceeds_fault _ _ rfl _)
  · exact .refl s

theorem concur_parseSession? (hBuiltIn : g.hasBuiltInParselets = true) (source : String) :
    Concur NodeId.IsIn (.ofSource g.lexicon source.toList) (g.parseSession? source)
      ((g.withRecovery recovery).parseSession? source) :=
  (concur_parseRoot recovery (concurs_engine recovery hBuiltIn _ _) _).bind fun r _ hRoot =>
    .some (g.proceeds_checkEnd r.2) ((g.proceeds_checkEnd r.2).isIn hRoot)

end Grammar

/-- Two parses of a source are the same, or both have reported an error and the same messages up to
the first. -/
def Parsed.AgreeUpToError (p q : Parsed) : Prop :=
  (p.document.diagnostics.hasErrors = false ∧ q = p) ∨
  (p.document.diagnostics.hasErrors = true ∧ q.document.diagnostics.hasErrors = true ∧
    q.document.diagnostics.upToError = p.document.diagnostics.upToError)

namespace Grammar

variable {g : Grammar}

/-- A parse has a result where no loop of the grammar goes on for ever at the end of the input. -/
theorem exists_parse? (hBuiltIn : g.hasBuiltInParselets = true) (hEnd : g.infixFor? .eof = none)
    (hBlocks : g.hasOpenBlocks = true) (filename source : String) :
    ∃ p, g.parse? filename source = some p := by
  obtain ⟨⟨root, t⟩, hRoot⟩ :=
    settles hBuiltIn hEnd hBlocks (Session.ending_ofSource g.lexicon source.toList)
      (fun _ _ he => parseRoot_isSome he) fun _ _ h => keeps_parseRoot h _
  have hRoot := hRoot _ _ (Nat.le_refl _) (Nat.le_refl _)
  simp [parse?, parseSession?, hRoot]

section

variable (hBuiltIn : g.hasBuiltInParselets = true) (hLexicon : g.lexicon.isBuiltIn = true)
  (hSpellings : ∀ p ∈ g.lexicon.punctuators.entries, p.symbol ≠ .invalid)

include hBuiltIn hLexicon hSpellings

/-- Under two policies a source is parsed to the same, or both parses start with the same messages
and an error among them. -/
theorem parse?_withRecovery (recovery : RecoveryPolicy) (filename source : String) :
    g.parse? filename source = (g.withRecovery recovery).parse? filename source ∨
    ∃ d : Diagnostics, d.hasErrors = true ∧
      (∀ p, g.parse? filename source = some p → d.toList <+: p.document.diagnostics.toList) ∧
      ∀ p, (g.withRecovery recovery).parse? filename source = some p →
        d.toList <+: p.document.diagnostics.toList := by
  have hWatchful := watchful_ofSource hLexicon hSpellings source.toList
  rcases (concur_parseSession? recovery hBuiltIn source).same hWatchful with
    hSame | ⟨d, hErrors, hLeft, hRight⟩
  · exact .inl (by rw [parse?, parse?, hSame])
  · refine .inr ⟨d, hErrors, fun p hParsed => ?_, fun p hParsed => ?_⟩
    · obtain ⟨r, hResult, rfl⟩ := Option.map_eq_some_iff.mp hParsed
      exact hLeft r hResult
    · obtain ⟨r, hResult, rfl⟩ := Option.map_eq_some_iff.mp hParsed
      exact hRight r hResult

/-- The policy for what follows a statement without a boundary matters after an error alone. Under
both policies a source is parsed to the same without an error, or both parses report an error and
the same messages up to the first; and both have a result where parsing has one at all. -/
theorem parse?_of_policies (filename source : String) :
    (∀ p q, (g.withRecovery .skipToBoundary).parse? filename source = some p →
      (g.withRecovery .none).parse? filename source = some q → p.AgreeUpToError q) ∧
    (∀ p : Parsed, p.document.diagnostics.hasErrors = false →
      ((g.withRecovery .skipToBoundary).parse? filename source = some p ↔
        (g.withRecovery .none).parse? filename source = some p)) ∧
    (g.infixFor? .eof = none → g.hasOpenBlocks = true →
      (∃ p, (g.withRecovery .skipToBoundary).parse? filename source = some p) ∧
      ∃ q, (g.withRecovery .none).parse? filename source = some q) := by
  have hEither := parse?_withRecovery (g := g.withRecovery .skipToBoundary) hBuiltIn hLexicon
    hSpellings .none filename source
  rw [withRecovery_withRecovery] at hEither
  have hReturns (recovery : RecoveryPolicy) (hEnd : g.infixFor? .eof = none)
      (hBlocks : g.hasOpenBlocks = true) :
      ∃ p, (g.withRecovery recovery).parse? filename source = some p :=
    exists_parse? (g := g.withRecovery recovery) hBuiltIn hEnd hBlocks filename source
  refine ⟨fun p q hSkipping hPlain => ?_, fun p hClean => ?_,
    fun hEnd hBlocks => ⟨hReturns _ hEnd hBlocks, hReturns _ hEnd hBlocks⟩⟩
  · rcases hEither with hSame | ⟨d, hErrors, hLeft, hRight⟩
    · obtain rfl : p = q := Option.some.inj (hSkipping.symm.trans (hSame.trans hPlain))
      cases hClean : p.document.diagnostics.hasErrors with
      | false => exact .inl ⟨hClean, rfl⟩
      | true => exact .inr ⟨hClean, hClean, rfl⟩
    · have hBefore := hLeft p hSkipping
      have hBefore' := hRight q hPlain
      refine .inr ⟨Diagnostics.hasErrors_of_prefix hBefore hErrors,
        Diagnostics.hasErrors_of_prefix hBefore' hErrors, ?_⟩
      rw [Diagnostics.upToError_of_prefix hBefore hErrors,
        Diagnostics.upToError_of_prefix hBefore' hErrors]
  · rcases hEither with hSame | ⟨d, hErrors, hLeft, hRight⟩
    · rw [hSame]
    · have hDirty (hBefore : d.toList <+: p.document.diagnostics.toList) : False := by
        rw [Diagnostics.hasErrors_of_prefix hBefore hErrors] at hClean
        cases hClean
      exact ⟨fun hParsed => (hDirty (hLeft p hParsed)).elim,
        fun hParsed => (hDirty (hRight p hParsed)).elim⟩

end

end Grammar

namespace Sample

/-- Three names without separators between them, and a fourth behind one. -/
def crowdedNames : String := "a b c; d"

/-- One policy skips the second and the third name as one, and the other reports about each of
them. The first message is the same. -/
theorem parse?_of_policies_crowdedNames :
    ∃ p q, (operatorGrammar.withRecovery .skipToBoundary).parse? "names" crowdedNames = some p ∧
      (operatorGrammar.withRecovery .none).parse? "names" crowdedNames = some q ∧
      (p.arena.size = 4 ∧ p.document.diagnostics.errorCount = 1) ∧
      (q.arena.size = 5 ∧ q.document.diagnostics.errorCount = 2) ∧
      p.AgreeUpToError q := by
  have hSkipped : ((operatorGrammar.withRecovery .skipToBoundary).parse? "names" crowdedNames).any
      (fun p => p.arena.size == 4 && p.document.diagnostics.errorCount == 1) = true := by
    decide +kernel
  have hPlain : ((operatorGrammar.withRecovery .none).parse? "names" crowdedNames).any
      (fun p => p.arena.size == 5 && p.document.diagnostics.errorCount == 2) = true := by
    decide +kernel
  obtain ⟨p, hResult, hShape⟩ := (Option.any_eq_true _ _).mp hSkipped
  obtain ⟨q, hResult', hShape'⟩ := (Option.any_eq_true _ _).mp hPlain
  simp only [Bool.and_eq_true, beq_iff_eq] at hShape hShape'
  exact ⟨p, q, hResult, hResult', hShape, hShape',
    (Grammar.parse?_of_policies (by decide +kernel) (by decide +kernel) (by decide +kernel) "names"
      crowdedNames).1 p q hResult hResult'⟩

/-- Names in statements, and the name of the kind of invalid tokens as a spelling. -/
def markedInvalid : Rules where
  lexical := [.ignore .blanks, .spelling "#invalid"]
  declarations := Declaration.names ++ [.block "#sof" "#eof" (some ";") false]

/-- A token of that spelling is invalid and nobody reports it. The block skips what stands behind it
in silence under one policy, and reports about it under the other. -/
theorem error_under_one_policy :
    ∃ g, markedInvalid.grammar .standard = .ok g ∧ g.hasBuiltInParselets = true ∧
      g.lexicon.isBuiltIn = true ∧
      ∃ p q, (g.withRecovery .skipToBoundary).parse? "names" "a #invalid b ; c" = some p ∧
        (g.withRecovery .none).parse? "names" "a #invalid b ; c" = some q ∧
        p.document.diagnostics.hasErrors = false ∧ q.document.diagnostics.hasErrors = true := by
  have hRules : markedInvalid.grammar .standard = .ok
      ((markedInvalid.grammar .standard).toOption.getD default) :=
    Except.eq_ok_getD (by decide +kernel) default
  have hSkipped : ((((markedInvalid.grammar .standard).toOption.getD default).withRecovery
      .skipToBoundary).parse? "names" "a #invalid b ; c").any
        (fun p => !p.document.diagnostics.hasErrors) = true := by
    decide +kernel
  have hPlain : ((((markedInvalid.grammar .standard).toOption.getD default).withRecovery
      .none).parse? "names" "a #invalid b ; c").any
        (fun p => p.document.diagnostics.hasErrors) = true := by
    decide +kernel
  obtain ⟨p, hResult, hClean⟩ := (Option.any_eq_true _ _).mp hSkipped
  obtain ⟨q, hResult', hErrors⟩ := (Option.any_eq_true _ _).mp hPlain
  exact ⟨_, hRules, by decide +kernel, by decide +kernel, p, q, hResult, hResult',
    by simpa using hClean, hErrors⟩

end Sample

end Precedence
