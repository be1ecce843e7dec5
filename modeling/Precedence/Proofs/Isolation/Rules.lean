import Precedence.Proofs.Isolation.Numbers
import Precedence.Proofs.Lexer.Positions

/-!
Rules and what they read, on its own. A rule of the library's reads of a text that was cut out what
it read when the text stood in its source, and a rule that did not apply there does not apply now.
The one exception are words that a rule for truth values declined because of what followed: it
accepts them where they were cut off.
-/
namespace Precedence

/-- What is found first is found first by another test that fails before it as well. -/
theorem find?_eq_some_of_imp {α : Type} {xs : List α} {p q : α → Bool} {x : α}
    (h : xs.find? p = some x) (hOther : ∀ y ∈ xs, q y = true → p y = true) (hThere : q x = true) :
    xs.find? q = some x := by
  rw [List.find?_eq_some_iff_append] at h ⊢
  obtain ⟨-, before, behind, rfl, hBefore⟩ := h
  refine ⟨hThere, before, behind, rfl, fun y hMem => ?_⟩
  by_contra hFound
  have hEarlier := hOther y (List.mem_append_left _ hMem) (by simpa using hFound)
  have hLater := hBefore y hMem
  rw [hEarlier] at hLater
  cases hLater

/-! ### Rules without white space -/

/-- Whether no white space stands in the texts of a rule. -/
def IgnoreRule.isUnspaced : IgnoreRule → Bool
  | .fixed text => Text.isUnspaced text
  | .lineComment opening => Text.isUnspaced opening
  | .blockComment opening closing => Text.isUnspaced opening && Text.isUnspaced closing
  | _ => true

/-- Whether no white space stands in the delimiters and separators of a rule. -/
def LiteralRule.isUnspaced : LiteralRule → Bool
  | .number format => format.isUnspaced
  | .string opening closing escape =>
    Text.isUnspaced opening && Text.isUnspaced closing && !escape.any Text.isBlank
  | _ => true

/-- Whether no white space stands in the spellings and rules of a lexicon. -/
def Lexicon.isUnspaced (lx : Lexicon) : Bool :=
  lx.punctuators.entries.all (fun p => Text.isUnspaced p.spelling) &&
    lx.literals.all LiteralRule.isUnspaced && lx.ignores.all IgnoreRule.isUnspaced

/-- Whether a rule is that for white space. -/
def IgnoreRule.isBlanks : IgnoreRule → Bool
  | .blanks => true
  | _ => false

/-- Whether names have the standard form. -/
def NamePolicy.isStandard : NamePolicy → Bool
  | .standard => true
  | _ => false

namespace Cursor

variable {c d : Cursor} {n : Nat}

theorem peek_isolated (h : Text.Isolates c.rest n d.rest) {k : Nat} (hLess : k < n) :
    d.peek k = c.peek k := by
  rw [peek, peek, h.getElem?_eq hLess]

theorem current_isolated (h : Text.Isolates c.rest n d.rest) (hSome : 0 < n) :
    d.current = c.current :=
  peek_isolated h hSome

/-- What was cut out goes on with nothing that a space cannot be. -/
theorem peek_self_isolated (h : Text.Isolates c.rest n d.rest) {p : Char → Bool}
    (hSpace : p ' ' = false) (hEnd : p '\x00' = false) : p (d.peek n) = false := by
  rw [peek]
  rcases h.getElem?_self with hNone | hBlank
  · rw [hNone]
    exact hEnd
  · rw [hBlank]
    exact hSpace

/-- A run of characters ends at one that does not belong to it. -/
theorem peek_countWhile (c : Cursor) {p : Char → Bool} (hEnd : p '\x00' = false) :
    p (c.peek (c.countWhile p)) = false := by
  rw [peek, countWhile]
  generalize c.rest = cs
  induction cs with
  | nil => exact hEnd
  | cons x cs ih =>
      by_cases hRun : p x = true
      · rw [List.takeWhile_cons_of_pos hRun]
        exact ih
      · rw [List.takeWhile_cons_of_neg hRun]
        simpa using hRun

theorem countWhile_pos (hMore : c.rest ≠ []) {p : Char → Bool} (hCurrent : p c.current = true) :
    0 < c.countWhile p := by
  obtain ⟨x, rest, hRest⟩ := List.exists_cons_of_ne_nil hMore
  have hFirst : p x = true := by simpa [current, peek, hRest] using hCurrent
  rw [countWhile, hRest, List.takeWhile_cons_of_pos hFirst]
  exact Nat.succ_pos _

end Cursor

/-! ### What is ignored -/

namespace IgnoreRule

variable {rule : IgnoreRule} {c d : Cursor} {n : Nat}

/-- A rule that applies skips something. -/
theorem width_pos_of_read? (hBuiltIn : rule.isBuiltIn = true) (hMore : c.rest ≠ [])
    {reading : Reading} (h : rule.read? c = some reading) : 0 < reading.width := by
  have hOpening {text : List Char} (hText : text ≠ [] ∧ c.startsWith text = true) (n : Nat) :
      0 < text.length + n :=
    Nat.lt_of_lt_of_le (List.length_pos_iff.mpr hText.1) (Nat.le_add_right _ _)
  cases rule with
  | blanks =>
      obtain ⟨hBlank, ⟨⟩⟩ := Option.ite_none_right_eq_some.mp h
      exact Cursor.countWhile_pos hMore hBlank
  | run test =>
      obtain ⟨hTest, ⟨⟩⟩ := Option.ite_none_right_eq_some.mp h
      exact Cursor.countWhile_pos hMore hTest
  | custom read? => cases hBuiltIn
  | fixed text =>
      obtain ⟨hText, ⟨⟩⟩ := Option.ite_none_right_eq_some.mp h
      exact hOpening hText 0
  | lineComment opening =>
      obtain ⟨hText, ⟨⟩⟩ := Option.ite_none_right_eq_some.mp h
      exact hOpening hText _
  | blockComment opening closing =>
      obtain ⟨hText, ⟨⟩⟩ := Option.ite_none_right_eq_some.mp h
      exact hOpening hText _

/-- A rule that does not apply to a text does not apply to what was cut out of its front. -/
theorem read?_isolated (hBuiltIn : rule.isBuiltIn = true) (hUnspaced : rule.isUnspaced = true)
    (h : Text.Isolates c.rest n d.rest) (hSome : 0 < n) (hNone : rule.read? c = none) :
    rule.read? d = none := by
  have hText {text : List Char} (hText : Text.isUnspaced text = true)
      (hOther : ¬(text ≠ [] ∧ c.startsWith text = true)) :
      ¬(text ≠ [] ∧ d.startsWith text = true) := fun hThere =>
    hOther ⟨hThere.1, (h.isPrefixOf_of_isUnspaced hText hThere.2).2⟩
  cases rule with
  | custom read? => cases hBuiltIn
  | fixed text =>
      simp only [read?, ite_eq_right_iff, reduceCtorEq, imp_false] at hNone ⊢
      exact hText hUnspaced hNone
  | lineComment opening =>
      simp only [read?, ite_eq_right_iff, reduceCtorEq, imp_false] at hNone ⊢
      exact hText hUnspaced hNone
  | blockComment opening closing =>
      simp only [read?, ite_eq_right_iff, reduceCtorEq, imp_false] at hNone ⊢
      exact hText ((Bool.and_eq_true _ _).mp hUnspaced).1 hNone
  | _ =>
      simp only [read?, ite_eq_right_iff, reduceCtorEq, imp_false] at hNone ⊢
      rwa [Cursor.current_isolated h hSome]

end IgnoreRule

/-! ### Literals -/

/-- The words that are truth values. -/
def LiteralRule.truthValues : List (List Char) := ["true".toList, "false".toList]

theorem LiteralRule.eq_of_mem_truthValues {word : List Char} (h : word ∈ truthValues) :
    word = "true".toList ∨ word = "false".toList := by
  simpa [truthValues] using h

theorem LiteralRule.isUnspaced_of_mem_truthValues {word : List Char} (h : word ∈ truthValues) :
    Text.isUnspaced word = true := by
  rcases eq_of_mem_truthValues h with rfl | rfl <;> decide

theorem LiteralRule.eq_of_length_eq {word other : List Char} (h : word ∈ truthValues)
    (hOther : other ∈ truthValues) (hLength : word.length = other.length) : word = other := by
  rcases eq_of_mem_truthValues h with rfl | rfl <;>
    rcases eq_of_mem_truthValues hOther with rfl | rfl <;> first | rfl | cases hLength

/-- The letters that a truth value has in front, whichever its case. -/
theorem Text.mem_of_fold_eq {ignoreCase : Bool} {c d : Char}
    (hFold : fold ignoreCase c = fold ignoreCase d) (h : d ∈ ['t', 'T', 'f', 'F']) :
    c ∈ ['t', 'T', 'f', 'F'] := by
  cases ignoreCase with
  | false =>
      have hSame : c = d := hFold
      rwa [hSame]
  | true =>
      have hLower : c.toLower = d.toLower := hFold
      have hLetter : d.toLower = 't' ∨ d.toLower = 'f' := by
        simp only [List.mem_cons, List.not_mem_nil, or_false] at h
        rcases h with rfl | rfl | rfl | rfl <;> decide
      rw [← hLower] at hLetter
      unfold Char.toLower at hLetter
      split at hLetter
      · next hUpper =>
        have hCapital {l : Char} {value : UInt32} (hValue : c.val + ('a'.val - 'A'.val) = value)
            (hBack : value - ('a'.val - 'A'.val) = l.val) : c = l :=
          Char.ext (by rw [← hBack, ← hValue, UInt32.add_sub_cancel])
        rcases hLetter with hT | hF
        · rw [hCapital (l := 'T') (congrArg Char.val hT) rfl]
          decide
        · rw [hCapital (l := 'F') (congrArg Char.val hF) rfl]
          decide
      · rcases hLetter with rfl | rfl <;> decide

namespace Cursor

/-- A truth value stands at the front of a longer word at a cursor. -/
def ClipsTruthValue (c : Cursor) (ignoreCase : Bool) (n : Nat) : Prop :=
  ∃ word ∈ LiteralRule.truthValues, word.length = n ∧
    Text.startsAs ignoreCase word c.rest = true ∧ LiteralRule.isWordPart (c.peek n) = true

variable {c : Cursor} {ignoreCase : Bool} {n : Nat}

theorem ClipsTruthValue.one_lt (h : c.ClipsTruthValue ignoreCase n) : 1 < n := by
  obtain ⟨word, hWord, rfl, -⟩ := h
  rcases LiteralRule.eq_of_mem_truthValues hWord with rfl | rfl <;> decide

theorem ClipsTruthValue.head_mem (h : c.ClipsTruthValue ignoreCase n) :
    ∃ x rest, c.rest = x :: rest ∧ x ∈ ['t', 'T', 'f', 'F'] := by
  obtain ⟨word, hWord, -, hFront, -⟩ := h
  rw [Text.startsAs_iff] at hFront
  cases hRest : c.rest with
  | nil =>
      rw [hRest] at hFront
      rcases LiteralRule.eq_of_mem_truthValues hWord with rfl | rfl <;> cases hFront
  | cons x rest =>
      refine ⟨x, rest, rfl, ?_⟩
      rw [hRest] at hFront
      rcases LiteralRule.eq_of_mem_truthValues hWord with rfl | rfl
      · exact Text.mem_of_fold_eq (List.head_eq_of_cons_eq hFront) (by decide)
      · exact Text.mem_of_fold_eq (List.head_eq_of_cons_eq hFront) (by decide)

end Cursor

namespace LiteralRule

variable {rule : LiteralRule} {c d : Cursor} {n : Nat} {reading : LiteralReading}

theorem isWordAt_eq (ignoreCase : Bool) (c : Cursor) (word : List Char) :
    isWordAt ignoreCase c word =
      (Text.startsAs ignoreCase word c.rest && !isWordPart (c.peek word.length)) := rfl

/-- A rule that applies reads something. -/
theorem width_pos_of_read? (hBuiltIn : rule.isBuiltIn = true) (h : rule.read? c = some reading) :
    0 < reading.width := by
  cases rule with
  | number format =>
      obtain ⟨hStarts, ⟨⟩⟩ := Option.ite_none_right_eq_some.mp h
      exact Nat.zero_lt_of_lt (NumberFormat.signLength_lt_width hStarts)
  | string opening closing escape =>
      obtain ⟨hOpening, ⟨⟩⟩ := Option.ite_none_right_eq_some.mp h
      exact Nat.lt_of_lt_of_le (List.length_pos_iff.mpr hOpening.1) (Nat.le_add_right _ _)
  | boolean ignoreCase =>
      obtain ⟨word, hWord, rfl⟩ := Option.map_eq_some_iff.mp h
      rcases eq_of_mem_truthValues (List.mem_of_find?_eq_some hWord) with rfl | rfl <;>
        exact Nat.succ_pos _
  | custom read? => cases hBuiltIn

/-- A rule that reads a text reads as much of it when it is cut out. -/
theorem exists_read?_isolated (hBuiltIn : rule.isBuiltIn = true)
    (hUnspaced : rule.isUnspaced = true) (hRead : rule.read? c = some reading)
    (h : Text.Isolates c.rest reading.width d.rest) :
    ∃ there, rule.read? d = some there ∧ there.width = reading.width ∧
      there.token.symbol = reading.token.symbol := by
  have hPos := width_pos_of_read? hBuiltIn hRead
  cases rule with
  | number format =>
      obtain ⟨hStarts, ⟨⟩⟩ := Option.ite_none_right_eq_some.mp hRead
      have hLong := NumberFormat.signLength_lt_width hStarts
      have hThere : format.starts d.rest = true := by
        rw [NumberFormat.starts_isolated h hPos fun _ => hLong, hStarts]
      refine ⟨readNumber format d, if_pos hThere, ?_, rfl⟩
      exact NumberFormat.width_extent_isolated hUnspaced hStarts h
  | string opening closing escape =>
      obtain ⟨hOpening, ⟨⟩⟩ := Option.ite_none_right_eq_some.mp hRead
      simp only [isUnspaced, Bool.and_eq_true] at hUnspaced
      obtain ⟨⟨-, hClosing⟩, hEscape⟩ := hUnspaced
      have hLe : opening.length ≤ (readString opening closing escape c).width :=
        Nat.le_add_right _ _
      have hThere : opening ≠ [] ∧ d.startsWith opening = true :=
        ⟨hOpening.1, (h.isPrefixOf_eq hLe).trans hOpening.2⟩
      have hPlain : escape ≠ some ' ' := by
        rintro rfl
        simp [Text.isBlank_space] at hEscape
      refine ⟨readString opening closing escape d, if_pos hThere, ?_, rfl⟩
      have hContent := h.drop hLe
      simp only [readString, Cursor.rest_advanceBy, Nat.add_sub_cancel_left] at hContent ⊢
      rw [Nat.add_right_inj]
      have hWidth := Delimited.width_scan_isolated hClosing hPlain hContent (Nat.zero_add _).symm
      rw [hWidth, Nat.zero_add]
  | boolean ignoreCase =>
      obtain ⟨word, hWord, rfl⟩ := Option.map_eq_some_iff.mp hRead
      have hHere := List.find?_some hWord
      have hThere : (truthValues.find? (isWordAt ignoreCase d)) = some word := by
        apply find?_eq_some_of_imp hWord
        · intro other hOther hFound
          rw [isWordAt_eq, Bool.and_eq_true] at hFound
          obtain ⟨hLe, hFront⟩ := h.startsAs_of_isUnspaced (isUnspaced_of_mem_truthValues hOther)
            hFound.1
          rcases Nat.lt_or_eq_of_le hLe with hLess | hSame
          · rw [isWordAt_eq, Bool.and_eq_true, ← Cursor.peek_isolated h hLess]
            exact ⟨hFront, hFound.2⟩
          · rw [eq_of_length_eq hOther (List.mem_of_find?_eq_some hWord) hSame]
            exact hHere
        · rw [isWordAt_eq, Bool.and_eq_true] at hHere ⊢
          refine ⟨(h.startsAs_eq (Nat.le_refl _)).trans hHere.1, ?_⟩
          rw [Bool.not_eq_true']
          exact Cursor.peek_self_isolated h (by decide) (by decide)
      exact ⟨_, congrArg (Option.map _) hThere, rfl, rfl⟩
  | custom read? => cases hBuiltIn

/-- A rule that reads nothing of a text reads nothing of what was cut out of its front, unless it is
a rule for truth values and one was clipped there. -/
theorem read?_isolated (hBuiltIn : rule.isBuiltIn = true) (hUnspaced : rule.isUnspaced = true)
    (h : Text.Isolates c.rest n d.rest) (hSome : 0 < n)
    (hWhole : ∀ ignoreCase, rule = .boolean ignoreCase → ¬c.ClipsTruthValue ignoreCase n)
    (hNone : rule.read? c = none) : rule.read? d = none := by
  cases rule with
  | number format =>
      simp only [read?, ite_eq_right_iff, reduceCtorEq, imp_false, Bool.not_eq_true] at hNone ⊢
      rw [NumberFormat.starts_isolated h hSome fun hStarts => ?_, hNone]
      rw [hNone] at hStarts
      cases hStarts
  | string opening closing escape =>
      simp only [isUnspaced, Bool.and_eq_true] at hUnspaced
      simp only [read?, ite_eq_right_iff, reduceCtorEq, imp_false] at hNone ⊢
      exact fun hThere =>
        hNone ⟨hThere.1, (h.isPrefixOf_of_isUnspaced hUnspaced.1.1 hThere.2).2⟩
  | boolean ignoreCase =>
      rw [read?, readBoolean?, Option.map_eq_none_iff, List.find?_eq_none] at hNone ⊢
      intro word hWord hThere
      apply hNone word hWord
      rw [isWordAt_eq, Bool.and_eq_true] at hThere ⊢
      obtain ⟨hLe, hFront⟩ := h.startsAs_of_isUnspaced (isUnspaced_of_mem_truthValues hWord)
        hThere.1
      refine ⟨hFront, ?_⟩
      rcases Nat.lt_or_eq_of_le hLe with hLess | rfl
      · rw [← Cursor.peek_isolated h hLess]
        exact hThere.2
      · by_contra hPart
        simp only [Bool.not_eq_true', Bool.not_eq_false] at hPart
        exact hWhole ignoreCase rfl ⟨word, hWord, rfl, hFront, hPart⟩
  | custom read? => cases hBuiltIn

/-- Only a string can be a truth value off the front of a longer word. -/
theorem symbol_of_clips (hBuiltIn : rule.isBuiltIn = true) (hRead : rule.read? c = some reading)
    {ignoreCase : Bool} (h : c.ClipsTruthValue ignoreCase reading.width) :
    reading.token.symbol = .string := by
  cases rule with
  | number format =>
      obtain ⟨hStarts, -⟩ := Option.ite_none_right_eq_some.mp hRead
      obtain ⟨x, rest, hRest, hLetter⟩ := h.head_mem
      rw [hRest, NumberFormat.starts] at hStarts
      simp only [List.mem_cons, List.not_mem_nil, or_false] at hLetter
      rcases hLetter with rfl | rfl | rfl | rfl <;> cases hStarts
  | string opening closing escape =>
      obtain ⟨-, ⟨⟩⟩ := Option.ite_none_right_eq_some.mp hRead
      rfl
  | boolean ignoreCase =>
      obtain ⟨word, hWord, rfl⟩ := Option.map_eq_some_iff.mp hRead
      have hHere := List.find?_some hWord
      rw [isWordAt_eq, Bool.and_eq_true] at hHere
      obtain ⟨-, -, -, -, hPart⟩ := h
      rw [hPart] at hHere
      cases hHere.2
  | custom read? => cases hBuiltIn

/-- Whether a rule is for strings that open with a letter that a truth value has in front. -/
def opensTruthValue : LiteralRule → Bool
  | .string opening _ _ => opening.head?.any (['t', 'T', 'f', 'F'].contains ·)
  | _ => false

/-- The string opens with a letter of the truth value then. -/
theorem opensTruthValue_of_clips (hBuiltIn : rule.isBuiltIn = true)
    (hRead : rule.read? c = some reading) {ignoreCase : Bool}
    (h : c.ClipsTruthValue ignoreCase reading.width) : rule.opensTruthValue = true := by
  have hSymbol := symbol_of_clips hBuiltIn hRead h
  cases rule with
  | string opening closing escape =>
      obtain ⟨x, rest, hRest, hLetter⟩ := h.head_mem
      obtain ⟨hOpening, -⟩ := Option.ite_none_right_eq_some.mp hRead
      have hHead := Cursor.head?_of_startsWith hOpening.1 hOpening.2
      rw [opensTruthValue, hHead, hRest, List.head?_cons, Option.any_some]
      exact List.contains_iff_mem.mpr hLetter
  | number format =>
      obtain ⟨-, ⟨⟩⟩ := Option.ite_none_right_eq_some.mp hRead
      cases hSymbol
  | boolean ignoreCase =>
      obtain ⟨word, -, rfl⟩ := Option.map_eq_some_iff.mp hRead
      cases hSymbol
  | custom read? => cases hBuiltIn

/-! ### The first rule that applies -/

variable {rules : List LiteralRule}

/-- Nothing is read where no rule applies. -/
theorem readFirst_eq_none_iff (hBuiltIn : ∀ rule ∈ rules, rule.isBuiltIn = true) :
    (readFirst c rules).2 = none ↔ ∀ rule ∈ rules, rule.read? c = none := by
  induction rules with
  | nil => simp [readFirst]
  | cons rule rules ih =>
      obtain ⟨hRule, hRules⟩ := List.forall_mem_cons.mp hBuiltIn
      rw [List.forall_mem_cons, readFirst, ← ih hRules]
      cases hRead : rule.read? c with
      | none => simp
      | some reading => simp [Nat.ne_of_gt (width_pos_of_read? hRule hRead)]

/-- What is read is what the first rule that applies reads. -/
theorem readFirst_eq_some_iff (hBuiltIn : ∀ rule ∈ rules, rule.isBuiltIn = true) :
    (readFirst c rules).2 = some reading ↔
      ∃ before rule behind, rules = before ++ rule :: behind ∧
        (∀ earlier ∈ before, earlier.read? c = none) ∧ rule.read? c = some reading := by
  induction rules with
  | nil => simp [readFirst]
  | cons rule rules ih =>
      obtain ⟨hRule, hRules⟩ := List.forall_mem_cons.mp hBuiltIn
      rw [readFirst]
      cases hRead : rule.read? c with
      | none =>
          rw [ih hRules]
          constructor
          · rintro ⟨before, later, behind, rfl, hBefore, hLater⟩
            exact ⟨rule :: before, later, behind, rfl,
              List.forall_mem_cons.mpr ⟨hRead, hBefore⟩, hLater⟩
          · rintro ⟨before, later, behind, hSplit, hBefore, hLater⟩
            cases before with
            | nil =>
                cases hSplit
                rw [hRead] at hLater
                cases hLater
            | cons first before =>
                cases hSplit
                exact ⟨before, later, behind, rfl, (List.forall_mem_cons.mp hBefore).2, hLater⟩
      | some first =>
          simp only [Nat.ne_of_gt (width_pos_of_read? hRule hRead), if_false, Option.some.injEq]
          constructor
          · rintro rfl
            exact ⟨[], rule, rules, rfl, List.forall_mem_nil _, hRead⟩
          · rintro ⟨before, later, behind, hSplit, hBefore, hLater⟩
            cases before with
            | nil =>
                cases hSplit
                rw [hRead] at hLater
                exact Option.some.inj hLater
            | cons other before =>
                cases hSplit
                rw [(List.forall_mem_cons.mp hBefore).1] at hRead
                cases hRead

/-- What is read at a cursor is a truth value off the front of a longer word, and a rule for truth
values declined it before. -/
def ClipsTruthValue (c : Cursor) (rules : List LiteralRule) : Prop :=
  ∃ before rule behind reading ignoreCase, rules = before ++ rule :: behind ∧
    (∀ earlier ∈ before, earlier.read? c = none) ∧ rule.read? c = some reading ∧
    .boolean ignoreCase ∈ before ∧ c.ClipsTruthValue ignoreCase reading.width

/-- What clips a truth value is a string. -/
theorem ClipsTruthValue.symbol_of_readFirst (h : ClipsTruthValue c rules)
    (hBuiltIn : ∀ rule ∈ rules, rule.isBuiltIn = true)
    (hRead : (readFirst c rules).2 = some reading) : reading.token.symbol = .string := by
  obtain ⟨before, rule, behind, clipped, ignoreCase, hSplit, hBefore, hFound, -, hClips⟩ := h
  have hFirst : (readFirst c rules).2 = some clipped :=
    (readFirst_eq_some_iff hBuiltIn).mpr ⟨before, rule, behind, hSplit, hBefore, hFound⟩
  rw [hRead, Option.some.injEq] at hFirst
  subst hFirst
  exact symbol_of_clips (hBuiltIn rule (by simp [hSplit])) hFound hClips

/-- The rules that read nothing of a text read nothing of what was cut out of its front, if no truth
value was clipped there. -/
theorem readFirst_isolated (hBuiltIn : ∀ rule ∈ rules, rule.isBuiltIn = true)
    (hUnspaced : ∀ rule ∈ rules, rule.isUnspaced = true) (h : Text.Isolates c.rest n d.rest)
    (hSome : 0 < n) (hWhole : ∀ ignoreCase, ¬c.ClipsTruthValue ignoreCase n)
    (hNone : (readFirst c rules).2 = none) : (readFirst d rules).2 = none := by
  rw [readFirst_eq_none_iff hBuiltIn] at hNone ⊢
  intro rule hMem
  exact read?_isolated (hBuiltIn rule hMem) (hUnspaced rule hMem) h hSome
    (fun ignoreCase _ => hWhole ignoreCase) (hNone rule hMem)

/-- The first rule that reads something of a text is the first to read something when that is cut
out, and it reads as much, unless it clipped a truth value. -/
theorem exists_readFirst_isolated (hBuiltIn : ∀ rule ∈ rules, rule.isBuiltIn = true)
    (hUnspaced : ∀ rule ∈ rules, rule.isUnspaced = true) (hLeaves : ¬ClipsTruthValue c rules)
    (hRead : (readFirst c rules).2 = some reading)
    (h : Text.Isolates c.rest reading.width d.rest) :
    ∃ there, (readFirst d rules).2 = some there ∧ there.width = reading.width ∧
      there.token.symbol = reading.token.symbol := by
  obtain ⟨before, rule, behind, rfl, hBefore, hFound⟩ :=
    (readFirst_eq_some_iff hBuiltIn).mp hRead
  have hRule : rule ∈ before ++ rule :: behind := by simp
  have hPos := width_pos_of_read? (hBuiltIn rule hRule) hFound
  obtain ⟨there, hThere, hSame⟩ :=
    exists_read?_isolated (hBuiltIn rule hRule) (hUnspaced rule hRule) hFound h
  refine ⟨there, (readFirst_eq_some_iff hBuiltIn).mpr
    ⟨before, rule, behind, rfl, fun earlier hEarlier => ?_, hThere⟩, hSame⟩
  have hMem := List.mem_append_left (rule :: behind) hEarlier
  apply read?_isolated (hBuiltIn earlier hMem) (hUnspaced earlier hMem) h hPos _
    (hBefore earlier hEarlier)
  rintro ignoreCase rfl hClips
  exact hLeaves ⟨before, rule, behind, reading, ignoreCase, rfl, hBefore, hFound, hEarlier, hClips⟩

end LiteralRule

end Precedence
