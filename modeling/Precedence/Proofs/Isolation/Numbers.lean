import Precedence.Proofs.Isolation.Text
import Precedence.Proofs.Numeral.Notation

/-!
Numbers on their own. A number that is cut out of its text is as long as it was: what was looked at
behind it, for a fraction or an exponent, neither belongs to it nor is found in a space.
-/
namespace Precedence

namespace NumberFormat

/-- Whether the separators of a format are no white space. -/
def isUnspaced (f : NumberFormat) : Bool :=
  !Text.isBlank f.separators.fraction && !f.separators.digit.any Text.isBlank

variable {f : NumberFormat} {cs ds : List Char} {n : Nat}

theorem fraction_ne_space (h : f.isUnspaced = true) : ' ' ≠ f.separators.fraction := by
  intro hSpace
  rw [isUnspaced, ← hSpace, Text.isBlank_space] at h
  cases h

theorem digit_ne_space (h : f.isUnspaced = true) : f.separators.digit ≠ some ' ' := by
  intro hSpace
  rw [isUnspaced, hSpace, Option.any_some, Text.isBlank_space, Bool.and_eq_true] at h
  cases h.2

variable (hUnspaced : f.isUnspaced = true)

include hUnspaced

/-- A run of digits that ends where the text was cut, or before, is the same run still. -/
theorem digitRun_isolated (h : Text.Isolates cs n ds) {isDigit : Char → Bool}
    (hSpace : isDigit ' ' = false) (hLe : (f.digitRun isDigit cs).length ≤ n) :
    f.digitRun isDigit ds = f.digitRun isDigit cs := by
  have hStop : (isDigit ' ' || f.separators.digit == some ' ') = false := by
    rw [hSpace, Bool.false_or, beq_eq_false_iff_ne]
    exact digit_ne_space hUnspaced
  cases n with
  | zero =>
      have hNone : f.digitRun isDigit cs = [] := List.length_eq_zero_iff.mp (Nat.le_zero.mp hLe)
      rw [hNone, digitRun, if_neg (by simp [h.head?_any_eq_false hSpace])]
  | succ n =>
      rw [digitRun, digitRun, h.head?_eq (Nat.succ_pos n)]
      split
      · next hDigit =>
        rw [digitRun, if_pos hDigit] at hLe
        exact h.takeWhile_eq hStop hLe
      · rfl

theorem fractionLength_isolated (h : Text.Isolates cs n ds) (hLe : f.fractionLength cs ≤ n) :
    f.fractionLength ds = f.fractionLength cs := by
  have hPointOf : (' ' == f.separators.fraction) = false :=
    beq_eq_false_iff_ne.mpr (fraction_ne_space hUnspaced)
  cases n with
  | zero =>
      rw [Nat.le_zero.mp hLe]
      have hOther := h.head?_any_eq_false (p := (· == f.separators.fraction)) hPointOf
      cases ds with
      | nil => rfl
      | cons x rest =>
          rw [List.head?_cons, Option.any_some] at hOther
          simp [fractionLength, hOther]
  | succ n =>
      cases cs with
      | nil => rw [h.eq_of_length_le (Nat.zero_le _)]
      | cons x cs =>
          obtain ⟨rest, rfl, hRest⟩ := h.eq_cons
          by_cases hPoint : (f.fraction && x == f.separators.fraction) = true
          · have hRun : (f.digitRun Char.isDigit cs).length ≤ n := by
              by_contra hLong
              have hSome : (f.digitRun Char.isDigit cs).isEmpty = false := by
                rw [List.isEmpty_eq_false_iff, ← List.length_pos_iff]
                omega
              simp only [fractionLength, hPoint, hSome] at hLe
              simp at hLe
              omega
            simp only [fractionLength, digitRun_isolated hUnspaced hRest rfl hRun]
          · simp [fractionLength, hPoint]

theorem exponentLength_isolated (h : Text.Isolates cs n ds) (hLe : f.exponentLength cs ≤ n) :
    f.exponentLength ds = f.exponentLength cs := by
  cases n with
  | zero =>
      rw [Nat.le_zero.mp hLe]
      have hOther := h.head?_any_eq_false (p := fun c => c == 'e' || c == 'E') rfl
      cases ds with
      | nil => rfl
      | cons x rest =>
          rw [List.head?_cons, Option.any_some] at hOther
          simp [exponentLength, hOther]
  | succ n =>
      cases cs with
      | nil => rw [h.eq_of_length_le (Nat.zero_le _)]
      | cons x cs =>
          obtain ⟨rest, rfl, hRest⟩ := h.eq_cons
          by_cases hMark : (f.exponent && (x == 'e' || x == 'E')) = true
          · rw [exponentLength_cons, hMark, Bool.true_and] at hLe ⊢
            rw [exponentLength_cons, hMark, Bool.true_and]
            cases n with
            | zero =>
                have hNone : f.digitRun Char.isDigit (rest.drop (exponentSign rest)) = [] := by
                  have hHead := hRest.head?_any_eq_false (p := fun c => c == '+' || c == '-') rfl
                  have hSign : exponentSign rest = 0 := by
                    apply if_neg
                    rintro (hPlus | hMinus)
                    · simp [hPlus] at hHead
                    · simp [hMinus] at hHead
                  rw [hSign, List.drop_zero, digitRun, if_neg]
                  simp [hRest.head?_any_eq_false (p := Char.isDigit) rfl]
                rw [hNone, if_neg (by simp)]
                split at hLe
                · next hSome =>
                  rw [Bool.not_eq_true', List.isEmpty_eq_false_iff, ← List.length_pos_iff]
                    at hSome
                  omega
                · next hEmpty => exact (if_neg hEmpty).symm
            | succ n =>
                have hSign : exponentSign rest = exponentSign cs := by
                  rw [exponentSign, exponentSign, hRest.head?_eq (Nat.succ_pos n)]
                have hShort : exponentSign cs ≤ n + 1 := by
                  unfold exponentSign
                  split <;> omega
                have hRun : (f.digitRun Char.isDigit (cs.drop (exponentSign cs))).length ≤
                    n + 1 - exponentSign cs := by
                  split at hLe
                  · omega
                  · next hNone => simp_all
                rw [hSign, digitRun_isolated hUnspaced (hRest.drop hShort) rfl hRun]
          · simp [exponentLength, hMark]

/-- A decimal that was cut out is the same decimal still. -/
theorem decimalLength_isolated (h : Text.Isolates cs n ds) (hLe : f.decimalLength cs ≤ n) :
    f.decimalLength ds = f.decimalLength cs := by
  simp only [decimalLength] at hLe ⊢
  have hWhole : f.digitRun Char.isDigit ds = f.digitRun Char.isDigit cs :=
    digitRun_isolated hUnspaced h rfl (by omega)
  rw [hWhole]
  generalize (f.digitRun Char.isDigit cs).length = whole at hLe ⊢
  have hFraction := fractionLength_isolated hUnspaced (h.drop (k := whole) (by omega)) (by omega)
  rw [hFraction]
  generalize f.fractionLength (cs.drop whole) = fraction at hLe ⊢
  rw [exponentLength_isolated hUnspaced (h.drop (k := whole + fraction) (by omega)) (by omega)]

omit hUnspaced in
theorem radix?_take (f : NumberFormat) (cs : List Char) : f.radix? (cs.take 2) = f.radix? cs := by
  rcases cs with - | ⟨x, - | ⟨y, rest⟩⟩
  · rfl
  · rfl
  · show f.radix? [x, y] = f.radix? (x :: y :: rest)
    by_cases hZero : x = '0'
    · subst hZero
      rfl
    · simp [radix?, hZero]

omit hUnspaced in
/-- The mark of a base is among the first two characters, and no space. -/
theorem radix?_isolated (h : Text.Isolates cs n ds)
    (hMark : ∀ radix, f.radix? cs = some radix → 2 ≤ n) : f.radix? ds = f.radix? cs := by
  by_cases hLong : 2 ≤ n
  · rw [← f.radix?_take ds, h.take_eq hLong, radix?_take]
  · have hNone : f.radix? cs = none := by
      by_contra hSome
      obtain ⟨radix, hRadix⟩ := Option.ne_none_iff_exists'.mp hSome
      exact hLong (hMark radix hRadix)
    rw [hNone]
    by_contra hSome
    obtain ⟨radix, hRadix⟩ := Option.ne_none_iff_exists'.mp hSome
    obtain ⟨mark, rest, rfl, hLetter⟩ := eq_cons_of_radix? hRadix
    obtain rfl | rfl : n = 0 ∨ n = 1 := by omega
    · rcases h.getElem?_self with hCut | hCut <;> simp at hCut
    · rcases h.getElem?_self with hCut | hCut
      · simp at hCut
      · rw [List.getElem?_cons_succ, List.getElem?_cons_zero, Option.some.injEq] at hCut
        subst hCut
        simp [IsMark] at hLetter

omit hUnspaced in
theorem signLength_isolated (h : Text.Isolates cs n ds) (hSome : 0 < n) :
    signLength ds = signLength cs := by
  rw [signLength, signLength, h.head?_eq hSome]

omit hUnspaced in
/-- A number starts with its sign and a digit, so it is longer than its sign. -/
theorem signLength_lt_width (h : f.starts cs = true) : signLength cs < (f.extent cs).width := by
  have hDigit := (head_drop_signLength h).1
  cases hRadix : f.radix? (cs.drop (signLength cs)) with
  | some radix =>
      rw [extent_of_radix? hRadix]
      dsimp only
      omega
  | none =>
      have hRun : f.digitRun Char.isDigit (cs.drop (signLength cs)) ≠ [] := by
        rw [digitRun, if_pos hDigit]
        cases hBody : cs.drop (signLength cs) with
        | nil => simp [hBody] at hDigit
        | cons d rest =>
            have hFirst : d.isDigit = true := by simpa [hBody] using hDigit
            simp [hFirst]
      have hLength := List.length_pos_iff.mpr hRun
      rw [extent_of_radix?_eq_none hRadix]
      simp only [decimalLength]
      omega

omit hUnspaced in
/-- Whether a number starts does not depend on what was cut off, unless that is all but its sign. -/
theorem starts_isolated (h : Text.Isolates cs n ds) (hSome : 0 < n)
    (hLong : f.starts cs = true → signLength cs < n) : f.starts ds = f.starts cs := by
  obtain ⟨n, rfl⟩ := Nat.exists_eq_succ_of_ne_zero (Nat.ne_of_gt hSome)
  cases cs with
  | nil => rw [h.eq_of_length_le (Nat.zero_le _)]
  | cons c cs =>
      obtain ⟨rest, rfl, hRest⟩ := h.eq_cons
      rw [starts] at hLong ⊢
      rw [starts]
      cases n with
      | zero =>
          rw [hRest.head?_any_eq_false (p := Char.isDigit) rfl, Bool.and_false]
          by_cases hMinus : c = '-'
          · subst hMinus
            have hNone := fun hStarts => Nat.lt_irrefl 1 (hLong hStarts)
            exact (Bool.eq_false_iff.mpr hNone).symm
          · simp [hMinus]
      | succ n => rw [hRest.head?_eq (Nat.succ_pos n)]

/-- A number that was cut out is as long as it was. -/
theorem width_extent_isolated (hStarts : f.starts cs = true)
    (h : Text.Isolates cs (f.extent cs).width ds) : (f.extent ds).width = (f.extent cs).width := by
  have hLong := signLength_lt_width hStarts
  have hSign := signLength_isolated h (Nat.zero_lt_of_lt hLong)
  have hBody := h.drop (Nat.le_of_lt hLong)
  cases hRadix : f.radix? (cs.drop (signLength cs)) with
  | some radix =>
      rw [extent_of_radix? hRadix] at hBody ⊢
      dsimp only at hBody ⊢
      have hThere : f.radix? (ds.drop (signLength ds)) = some radix := by
        rw [hSign, radix?_isolated hBody fun _ _ => by omega, hRadix]
      have hSpace : radix.isDigit ' ' = false := by cases radix <;> rfl
      rw [extent_of_radix? hThere, hSign,
        digitRun_isolated hUnspaced (hBody.drop (k := 2) (by omega)) hSpace (by omega)]
  | none =>
      rw [extent_of_radix?_eq_none hRadix] at hBody ⊢
      dsimp only at hBody ⊢
      rw [Nat.add_sub_cancel_left] at hBody
      have hThere : f.radix? (ds.drop (signLength ds)) = none := by
        rw [hSign, radix?_isolated hBody, hRadix]
        intro radix hSome
        rw [hRadix] at hSome
        cases hSome
      rw [extent_of_radix?_eq_none hThere, hSign,
        decimalLength_isolated hUnspaced hBody (Nat.le_refl _)]

end NumberFormat

end Precedence
