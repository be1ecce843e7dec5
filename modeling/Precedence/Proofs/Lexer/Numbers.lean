import Mathlib.Data.List.TakeWhile
import Precedence.Numeral

/-!
Number literals between the lexer and their values. The lexer reads a base mark without digits and
reports it; the value of a literal has no digits only then, provided that the separators are no
letters and no digits.
-/
namespace Precedence

/-- Whether the separators are neither letters nor digits. -/
def Separators.areMarks (s : Separators) : Bool :=
  !s.fraction.isAlphanum && !s.digit.any Char.isAlphanum

theorem Separators.ne_digit {s : Separators} (h : s.areMarks = true) {c : Char}
    (hc : c.isAlphanum = true) : s.digit ≠ some c := by
  intro hDigit
  simp [areMarks, hDigit, hc] at h

theorem Separators.ne_fraction {s : Separators} (h : s.areMarks = true) {c : Char}
    (hc : c.isAlphanum = true) : c ≠ s.fraction := by
  rintro rfl
  simp [areMarks, hc] at h

/-- What has a value as a digit is a letter or a digit. -/
theorem Radix.isAlphanum_of_digitValue? {c : Char} (h : (digitValue? c).isSome = true) :
    c.isAlphanum = true := by
  unfold digitValue? at h
  split at h
  · next hDigit => exact Bool.or_eq_true_iff.mpr (.inr hDigit)
  · split at h
    · next hLower =>
      have hLetter : c.isLower = true := by
        refine Bool.and_eq_true_iff.mpr ⟨decide_eq_true hLower.1, decide_eq_true ?_⟩
        exact Char.le_trans hLower.2 (by decide)
      exact Bool.or_eq_true_iff.mpr (.inl (Bool.or_eq_true_iff.mpr (.inr hLetter)))
    · split at h
      · next hUpper =>
        have hLetter : c.isUpper = true :=
          decide_eq_true ⟨hUpper.1, Char.le_trans hUpper.2 (by decide)⟩
        exact Bool.or_eq_true_iff.mpr (.inl (Bool.or_eq_true_iff.mpr (.inl hLetter)))
      · cases h

theorem Radix.isSome_digitValue? {r : Radix} {c : Char} (h : r.isDigit c = true) :
    (digitValue? c).isSome = true := by
  rw [isDigit] at h
  cases hValue : digitValue? c with
  | none =>
      rw [hValue] at h
      cases h
  | some value => rfl

theorem Radix.isAlphanum_of_isDigit {r : Radix} {c : Char} (h : r.isDigit c = true) :
    c.isAlphanum = true :=
  isAlphanum_of_digitValue? (isSome_digitValue? h)

/-- The letters that mark a base. -/
def Radix.marks : Radix → List Char
  | .hexadecimal => ['x', 'X']
  | .binary => ['b', 'B']

/-- Whether the literals of a format may be to a base. -/
def NumberFormat.allows (f : NumberFormat) : Radix → Bool
  | .hexadecimal => f.hexadecimal
  | .binary => f.binary

namespace NumberFormat

variable {f : NumberFormat}

/-- A character that stands in a decimal: a digit, a separator, an exponent mark or a sign. -/
def IsPlain (f : NumberFormat) (c : Char) : Prop :=
  c.isDigit = true ∨ f.separators.digit = some c ∨ c = f.separators.fraction ∨
    c ∈ ['e', 'E', '+', '-']

theorem take_digitRun (isDigit : Char → Bool) (cs : List Char) :
    cs.take (f.digitRun isDigit cs).length = f.digitRun isDigit cs := by
  unfold digitRun
  split
  · exact List.prefix_iff_eq_take.mp (List.takeWhile_prefix _) |>.symm
  · rfl

theorem mem_digitRun {isDigit : Char → Bool} {cs : List Char} {c : Char}
    (h : c ∈ f.digitRun isDigit cs) : isDigit c = true ∨ f.separators.digit = some c := by
  unfold digitRun at h
  split at h
  · simpa using List.mem_takeWhile_imp h
  · cases h

/-- A run of digits that is not empty starts with a digit. -/
theorem digitRun_eq_cons {isDigit : Char → Bool} {cs : List Char}
    (h : f.digitRun isDigit cs ≠ []) :
    ∃ d later, f.digitRun isDigit cs = d :: later ∧ isDigit d = true := by
  unfold digitRun at h ⊢
  split at h
  · next hHead =>
    cases cs with
    | nil => cases hHead
    | cons d rest =>
        have hDigit : isDigit d = true := by simpa using hHead
        simp [hDigit]
  · exact absurd rfl h

theorem isPlain_of_mem_digitRun {cs : List Char} {c : Char}
    (h : c ∈ f.digitRun Char.isDigit cs) : f.IsPlain c :=
  (mem_digitRun h).imp_right .inl

theorem isPlain_of_mem_fraction {cs : List Char} {c : Char}
    (h : c ∈ cs.take (f.fractionLength cs)) : f.IsPlain c := by
  cases cs with
  | nil => cases h
  | cons point rest =>
      rw [fractionLength] at h
      split at h
      · next hFraction =>
        simp only [Bool.and_eq_true, beq_iff_eq] at hFraction
        rw [Nat.add_comm, List.take_succ_cons, take_digitRun] at h
        rcases List.mem_cons.mp h with rfl | hDigits
        · exact .inr (.inr (.inl hFraction.1.2))
        · exact isPlain_of_mem_digitRun hDigits
      · cases h

/-- The length of the sign of an exponent, if the text has one at the front. -/
def exponentSign (cs : List Char) : Nat :=
  if cs.head? = some '+' ∨ cs.head? = some '-' then 1 else 0

/-- An exponent is as long as its mark, its sign and its digits. -/
theorem exponentLength_cons (f : NumberFormat) (mark : Char) (rest : List Char) :
    f.exponentLength (mark :: rest) =
      if (f.exponent && (mark == 'e' || mark == 'E') &&
        !(f.digitRun Char.isDigit (rest.drop (exponentSign rest))).isEmpty) = true then
        1 + exponentSign rest + (f.digitRun Char.isDigit (rest.drop (exponentSign rest))).length
      else 0 := rfl

theorem isPlain_of_mem_sign {cs : List Char} {c : Char}
    (h : c ∈ cs.take (exponentSign cs)) : f.IsPlain c := by
  unfold exponentSign at h
  split at h
  · next hHead =>
    cases cs with
    | nil => cases h
    | cons sign rest =>
        simp only [List.head?_cons, Option.some.injEq] at hHead
        rw [List.take_succ_cons, List.take_zero, List.mem_singleton] at h
        rcases hHead with rfl | rfl
        · simp [IsPlain, h]
        · simp [IsPlain, h]
  · cases h

theorem isPlain_of_mem_exponent {cs : List Char} {c : Char}
    (h : c ∈ cs.take (f.exponentLength cs)) : f.IsPlain c := by
  cases cs with
  | nil => cases h
  | cons mark rest =>
      rw [exponentLength_cons] at h
      split at h
      · next hExponent =>
        simp only [Bool.and_eq_true, Bool.or_eq_true, beq_iff_eq] at hExponent
        rw [Nat.add_assoc, Nat.add_comm 1, List.take_succ_cons, List.take_add, take_digitRun] at h
        rcases List.mem_cons.mp h with rfl | hRest
        · rcases hExponent.1.2 with rfl | rfl
          · simp [IsPlain]
          · simp [IsPlain]
        · rcases List.mem_append.mp hRest with hMem | hDigits
          · exact isPlain_of_mem_sign hMem
          · exact isPlain_of_mem_digitRun hDigits
      · cases h

/-- A decimal is made of plain characters. -/
theorem isPlain_of_mem_decimal {cs : List Char} {c : Char}
    (h : c ∈ cs.take (f.decimalLength cs)) : f.IsPlain c := by
  rw [decimalLength] at h
  rw [List.take_add, List.take_add, take_digitRun] at h
  rcases List.mem_append.mp h with hFront | hExponent
  · rcases List.mem_append.mp hFront with hWhole | hFraction
    · exact isPlain_of_mem_digitRun hWhole
    · exact isPlain_of_mem_fraction hFraction
  · exact isPlain_of_mem_exponent hExponent

/-- The mark of a base. -/
def IsMark (c : Char) : Prop := c = 'x' ∨ c = 'X' ∨ c = 'b' ∨ c = 'B'

theorem isAlphanum_of_isMark {c : Char} (h : IsMark c) : c.isAlphanum = true := by
  rcases h with rfl | rfl | rfl | rfl <;> rfl

theorem isMark_of_mem_marks {radix : Radix} {c : Char} (h : c ∈ radix.marks) : IsMark c := by
  cases radix with
  | hexadecimal =>
      have hMark : c = 'x' ∨ c = 'X' := by simpa [Radix.marks] using h
      exact hMark.imp_right .inl
  | binary =>
      have hMark : c = 'b' ∨ c = 'B' := by simpa [Radix.marks] using h
      exact .inr (.inr hMark)

/-- No plain character marks a base. -/
theorem not_isMark_of_isPlain (hMarks : f.separators.areMarks = true) {c : Char}
    (h : f.IsPlain c) : ¬IsMark c := by
  intro hMark
  have hAlphanum := isAlphanum_of_isMark hMark
  rcases h with hDigit | hSeparator | hFraction | hExponent
  · rcases hMark with rfl | rfl | rfl | rfl <;> cases hDigit
  · exact Separators.ne_digit hMarks hAlphanum hSeparator
  · exact Separators.ne_fraction hMarks hAlphanum hFraction
  · rcases hMark with rfl | rfl | rfl | rfl <;> simp at hExponent

end NumberFormat

namespace Numeral

open NumberFormat

/-- A base mark is the second character, behind a zero. -/
theorem eq_cons_mark_of_markedRadix? {cs : List Char} {radix : Radix}
    (h : markedRadix? cs = some radix) :
    ∃ mark rest, cs = '0' :: mark :: rest ∧ mark ∈ radix.marks := by
  unfold markedRadix? at h
  split at h
  · next mark rest =>
    refine ⟨mark, rest, rfl, ?_⟩
    split at h
    · next hMark =>
      cases h
      simpa [Radix.marks] using hMark
    · obtain ⟨hMark, ⟨⟩⟩ := Option.ite_none_right_eq_some.mp h
      simpa [Radix.marks] using hMark
  · cases h

theorem eq_cons_of_markedRadix? {cs : List Char} {radix : Radix}
    (h : markedRadix? cs = some radix) : ∃ mark rest, cs = '0' :: mark :: rest ∧ IsMark mark := by
  obtain ⟨mark, rest, hCons, hMark⟩ := eq_cons_mark_of_markedRadix? h
  exact ⟨mark, rest, hCons, isMark_of_mem_marks hMark⟩

/-- A literal whose digits are missing is a base mark and nothing else. -/
theorem splitSign_eq_of_noDigits {separators : Separators} {text : List Char}
    (h : parse separators text = .error .noDigits) :
    ∃ mark, (splitSign (text.filter fun c => separators.digit != some c)).2 = ['0', mark] ∧
      IsMark mark := by
  unfold parse at h
  rcases hSplit : splitSign (text.filter fun c => separators.digit != some c) with ⟨negative, body⟩
  simp only [hSplit] at h
  split at h
  · next radix hRadix =>
    obtain ⟨mark, rest, rfl, hMark⟩ := eq_cons_of_markedRadix? hRadix
    split at h
    · next hNone =>
      have hRest : rest = [] := hNone
      exact ⟨mark, by rw [hRest], hMark⟩
    · split at h <;> cases h
  · split at h
    · split at h <;> cases h
    · split at h
      · split at h <;> cases h
      · cases h

/-- Dropping a sign leaves what stood behind it. -/
theorem mem_of_mem_splitSign {cs : List Char} {c : Char} (h : c ∈ (splitSign cs).2) : c ∈ cs := by
  unfold splitSign at h
  split at h
  · exact List.mem_cons_of_mem _ h
  · exact h

/-- With digits behind the mark of a base, the text of a literal has digits. -/
theorem parse_ne_noDigits_of_radix {f : NumberFormat} (hMarks : f.separators.areMarks = true)
    {sign : List Char} (hSign : sign = [] ∨ sign = ['-']) {mark d : Char} {later : List Char}
    (hMark : IsMark mark) (hDigit : d.isAlphanum = true) :
    parse f.separators (sign ++ '0' :: mark :: d :: later) ≠ .error .noDigits := by
  intro h
  obtain ⟨other, hBody, -⟩ := splitSign_eq_of_noDigits h
  have hZero := Separators.ne_digit hMarks (show '0'.isAlphanum = true by decide)
  have hMarkKept := Separators.ne_digit hMarks (isAlphanum_of_isMark hMark)
  have hDigitKept := Separators.ne_digit hMarks hDigit
  have hKept : (sign ++ '0' :: mark :: d :: later).filter (fun c => f.separators.digit != some c) =
      sign.filter (fun c => f.separators.digit != some c) ++ '0' :: mark :: d ::
        later.filter (fun c => f.separators.digit != some c) := by
    simp [hZero, hMarkKept, hDigitKept]
  have hFront : sign.filter (fun c => f.separators.digit != some c) = [] ∨
      sign.filter (fun c => f.separators.digit != some c) = ['-'] := by
    rcases hSign with rfl | rfl
    · exact .inl rfl
    · by_cases hMinus : f.separators.digit = some '-'
      · simp [hMinus]
      · simp [hMinus]
  rw [hKept] at hBody
  rcases hFront with hNone | hMinus
  · rw [hNone] at hBody
    cases hBody
  · rw [hMinus] at hBody
    cases hBody

/-- A text without a base mark is no literal whose digits are missing. -/
theorem parse_ne_noDigits_of_plain {separators : Separators} {text : List Char}
    (hPlain : ∀ c ∈ text, ¬IsMark c) : parse separators text ≠ .error .noDigits := by
  intro h
  obtain ⟨mark, hBody, hMark⟩ := splitSign_eq_of_noDigits h
  have hMem : mark ∈ (splitSign (text.filter fun c => separators.digit != some c)).2 := by
    rw [hBody]
    simp
  exact hPlain mark ((List.mem_filter.mp (mem_of_mem_splitSign hMem)).1) hMark

end Numeral

namespace NumberFormat

/-- The mark of a base is one of its letters, and the format has numbers to the base. -/
theorem eq_cons_mark_of_radix? {f : NumberFormat} {cs : List Char} {radix : Radix}
    (h : f.radix? cs = some radix) :
    ∃ mark rest, cs = '0' :: mark :: rest ∧ mark ∈ radix.marks ∧ f.allows radix = true := by
  unfold radix? at h
  split at h
  · next mark rest =>
    refine ⟨mark, rest, rfl, ?_⟩
    split at h
    · next hMark =>
      cases h
      simp only [Bool.and_eq_true, Bool.or_eq_true, beq_iff_eq] at hMark
      exact ⟨by simpa [Radix.marks] using hMark.2, hMark.1⟩
    · split at h
      · next hMark =>
        cases h
        simp only [Bool.and_eq_true, Bool.or_eq_true, beq_iff_eq] at hMark
        exact ⟨by simpa [Radix.marks] using hMark.2, hMark.1⟩
      · cases h
  · cases h

/-- The base that is marked, and the text that is read of it. -/
theorem eq_cons_of_radix? {f : NumberFormat} {cs : List Char} {radix : Radix}
    (h : f.radix? cs = some radix) : ∃ mark rest, cs = '0' :: mark :: rest ∧ IsMark mark := by
  obtain ⟨mark, rest, hCons, hMark, -⟩ := eq_cons_mark_of_radix? h
  exact ⟨mark, rest, hCons, isMark_of_mem_marks hMark⟩

/-- The length of the sign at the front. -/
def signLength (cs : List Char) : Nat := if cs.head? = some '-' then 1 else 0

theorem take_signLength (cs : List Char) :
    cs.take (signLength cs) = [] ∨ cs.take (signLength cs) = ['-'] := by
  unfold signLength
  split
  · next hHead =>
    cases cs with
    | nil => cases hHead
    | cons c rest =>
        cases hHead
        exact .inr rfl
  · exact .inl rfl

theorem extent_of_radix? {f : NumberFormat} {cs : List Char} {radix : Radix}
    (h : f.radix? (cs.drop (signLength cs)) = some radix) :
    f.extent cs = ⟨signLength cs + 2 +
        (f.digitRun radix.isDigit ((cs.drop (signLength cs)).drop 2)).length,
      if (f.digitRun radix.isDigit ((cs.drop (signLength cs)).drop 2)).isEmpty then some radix
      else none⟩ := by
  unfold extent
  unfold signLength at h ⊢
  simp only [h]

theorem extent_of_radix?_eq_none {f : NumberFormat} {cs : List Char}
    (h : f.radix? (cs.drop (signLength cs)) = none) :
    f.extent cs = ⟨signLength cs + f.decimalLength (cs.drop (signLength cs)), none⟩ := by
  unfold extent
  unfold signLength at h ⊢
  simp only [h]

/-- The lexer reports every literal whose digits are missing. -/
theorem missing_of_noDigits {f : NumberFormat} (hMarks : f.separators.areMarks = true)
    {cs : List Char}
    (h : Numeral.parse f.separators (cs.take (f.extent cs).width) = .error .noDigits) :
    (f.extent cs).missing.isSome := by
  cases hRadix : f.radix? (cs.drop (signLength cs)) with
  | some radix =>
      rw [extent_of_radix? hRadix] at h ⊢
      cases hRun : f.digitRun radix.isDigit ((cs.drop (signLength cs)).drop 2) with
      | nil => rfl
      | cons first others =>
          have hTaken := f.take_digitRun radix.isDigit ((cs.drop (signLength cs)).drop 2)
          obtain ⟨mark, rest, hBody, hMark⟩ := eq_cons_of_radix? hRadix
          have hDigits : f.digitRun radix.isDigit ((cs.drop (signLength cs)).drop 2) ≠ [] := by
            rw [hRun]
            exact List.cons_ne_nil _ _
          obtain ⟨d, later, hFirst, hDigit⟩ := digitRun_eq_cons hDigits
          rw [hFirst] at hTaken h
          rw [Nat.add_assoc, List.take_add, List.take_add, hTaken, hBody] at h
          exact absurd h (Numeral.parse_ne_noDigits_of_radix hMarks (take_signLength cs) hMark
            (Radix.isAlphanum_of_isDigit hDigit))
  | none =>
      rw [extent_of_radix?_eq_none hRadix, List.take_add] at h
      refine absurd h (Numeral.parse_ne_noDigits_of_plain ?_)
      intro c hMem
      rcases List.mem_append.mp hMem with hSign | hDecimal
      · rcases take_signLength cs with hNone | hMinus
        · rw [hNone] at hSign
          cases hSign
        · rw [hMinus, List.mem_singleton] at hSign
          rw [hSign]
          simp [IsMark]
      · exact not_isMark_of_isPlain hMarks (isPlain_of_mem_decimal hDecimal)

end NumberFormat

end Precedence
