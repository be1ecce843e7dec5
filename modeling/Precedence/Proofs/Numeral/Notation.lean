import Precedence.Proofs.Lexer.Numbers

/-!
Number literals as they are written. A literal is a minus sign, if it is negated, and then either
the mark of a base with digits of that base, or a decimal with a fraction, with an exponent, with
both or with neither. What the lexer reads as a number is the text of such a literal, and it misses
the digits of a base exactly if the literal has none.
-/
namespace Precedence

/-- The exponent of a decimal: its mark, its sign, which is a minus or not, and its digits. -/
structure NumberExponent where
  mark : Char
  sign : Option Bool
  digits : List Char

/-- What stands in a literal behind the minus sign, with the separators that stand among digits. -/
inductive NumberBody where
  | marked (radix : Radix) (mark : Char) (digits : List Char)
  | decimal (whole : List Char) (fraction : Option (List Char)) (exponent : Option NumberExponent)

/-- A number literal. -/
structure NumberLiteral where
  negative : Bool
  body : NumberBody

/-! ### In writing -/

/-- A minus sign, or none. -/
def Numeral.minusText (negative : Bool) : List Char := if negative then ['-'] else []

/-- The sign of an exponent, or none. -/
def NumberExponent.signText : Option Bool → List Char
  | none => []
  | some minus => if minus then ['-'] else ['+']

theorem NumberExponent.mem_signText {sign : Option Bool} {c : Char} (h : c ∈ signText sign) :
    c = '+' ∨ c = '-' := by
  rcases sign with - | minus
  · cases h
  · cases minus with
    | true => exact .inr (List.mem_singleton.mp h)
    | false => exact .inl (List.mem_singleton.mp h)

/-- An exponent in writing. -/
def NumberExponent.text (e : NumberExponent) : List Char := e.mark :: (signText e.sign ++ e.digits)

namespace NumberBody

/-- A fraction in writing, if there is one. -/
def fractionText (separators : Separators) (fraction : Option (List Char)) : List Char :=
  fraction.elim [] (separators.fraction :: ·)

/-- An exponent in writing, if there is one. -/
def exponentText (exponent : Option NumberExponent) : List Char := exponent.elim [] (·.text)

/-- What stands behind the sign in writing. -/
def text (separators : Separators) : NumberBody → List Char
  | .marked _ mark digits => '0' :: mark :: digits
  | .decimal whole fraction exponent =>
    whole ++ (fractionText separators fraction ++ exponentText exponent)

/-- The base whose digits are missing. -/
def missing : NumberBody → Option Radix
  | .marked radix _ [] => some radix
  | _ => none

end NumberBody

/-- A literal in writing. -/
def NumberLiteral.text (separators : Separators) (literal : NumberLiteral) : List Char :=
  Numeral.minusText literal.negative ++ literal.body.text separators

/-- The mark of a base without digits, behind a minus sign or not. -/
def Numeral.IsBareMark (text : List Char) : Prop :=
  ∃ negative, ∃ radix : Radix, ∃ mark ∈ radix.marks, text = minusText negative ++ ['0', mark]

/-! ### The literals of a format -/

/-- Digits of one kind with separators among and behind them. -/
structure Separators.IsRun (s : Separators) (isDigit : Char → Bool) (cs : List Char) : Prop where
  head : cs.head?.any isDigit = true
  members : ∀ c ∈ cs, isDigit c = true ∨ s.digit = some c

/-- An exponent has a mark and digits, and the format has exponents. -/
structure NumberExponent.IsOf (f : NumberFormat) (e : NumberExponent) : Prop where
  allowed : f.exponent = true
  mark : e.mark = 'e' ∨ e.mark = 'E'
  digits : f.separators.IsRun Char.isDigit e.digits

/-- The mark of a base may stand alone; every other part of a literal has digits, and the format
has such parts. -/
inductive NumberBody.IsOf (f : NumberFormat) : NumberBody → Prop
  | marked {radix : Radix} {mark : Char} {digits : List Char} (hAllowed : f.allows radix = true)
      (hMark : mark ∈ radix.marks)
      (hDigits : digits = [] ∨ f.separators.IsRun radix.isDigit digits) :
      IsOf f (.marked radix mark digits)
  | decimal {whole : List Char} {fraction : Option (List Char)} {exponent : Option NumberExponent}
      (hWhole : f.separators.IsRun Char.isDigit whole)
      (hFraction : ∀ digits ∈ fraction,
        f.fraction = true ∧ f.separators.IsRun Char.isDigit digits)
      (hExponent : ∀ e ∈ exponent, e.IsOf f) : IsOf f (.decimal whole fraction exponent)

/-- A literal of a format. -/
structure NumberLiteral.IsOf (f : NumberFormat) (literal : NumberLiteral) : Prop where
  negative : literal.negative = true → f.negative = true
  body : literal.body.IsOf f

/-! ### What is read as a number -/

namespace NumberFormat

variable {f : NumberFormat} {cs : List Char}

theorem isRun_digitRun {isDigit : Char → Bool} (h : f.digitRun isDigit cs ≠ []) :
    f.separators.IsRun isDigit (f.digitRun isDigit cs) := by
  obtain ⟨d, later, hRun, hDigit⟩ := digitRun_eq_cons h
  refine ⟨?_, fun c hMem => mem_digitRun hMem⟩
  rw [hRun]
  exact hDigit

theorem exists_fraction (f : NumberFormat) (cs : List Char) :
    ∃ fraction, cs.take (f.fractionLength cs) = NumberBody.fractionText f.separators fraction ∧
      ∀ digits ∈ fraction, f.fraction = true ∧ f.separators.IsRun Char.isDigit digits := by
  cases cs with
  | nil => exact ⟨none, rfl, fun _ hMem => by cases hMem⟩
  | cons point rest =>
      rw [fractionLength]
      split
      · next hFraction =>
        simp only [Bool.and_eq_true, beq_iff_eq, Bool.not_eq_true', List.isEmpty_eq_false_iff]
          at hFraction
        obtain ⟨⟨hAllowed, rfl⟩, hDigits⟩ := hFraction
        refine ⟨some (f.digitRun Char.isDigit rest), ?_, ?_⟩
        · rw [Nat.add_comm, List.take_succ_cons, take_digitRun]
          rfl
        · rintro digits ⟨⟩
          exact ⟨hAllowed, isRun_digitRun hDigits⟩
      · exact ⟨none, rfl, fun _ hMem => by cases hMem⟩

theorem exists_sign (cs : List Char) :
    ∃ sign, cs.take (exponentSign cs) = NumberExponent.signText sign := by
  unfold exponentSign
  split
  · next hHead =>
    obtain ⟨x, rest, rfl⟩ := List.exists_cons_of_ne_nil (l := cs) (by rintro rfl; simp at hHead)
    rw [List.head?_cons, Option.some.injEq, Option.some.injEq] at hHead
    rcases hHead with rfl | rfl
    · exact ⟨some false, rfl⟩
    · exact ⟨some true, rfl⟩
  · exact ⟨none, rfl⟩

theorem exists_exponent (f : NumberFormat) (cs : List Char) :
    ∃ exponent, cs.take (f.exponentLength cs) = NumberBody.exponentText exponent ∧
      ∀ e ∈ exponent, NumberExponent.IsOf f e := by
  cases cs with
  | nil => exact ⟨none, rfl, fun _ hMem => by cases hMem⟩
  | cons mark rest =>
      obtain ⟨sign, hSign⟩ := exists_sign rest
      rw [exponentLength_cons]
      split
      · next hExponent =>
        simp only [Bool.and_eq_true, Bool.or_eq_true, beq_iff_eq, Bool.not_eq_true',
          List.isEmpty_eq_false_iff] at hExponent
        obtain ⟨⟨hAllowed, hMark⟩, hDigits⟩ := hExponent
        refine ⟨some ⟨mark, sign, f.digitRun Char.isDigit (rest.drop (exponentSign rest))⟩,
          ?_, ?_⟩
        · rw [Nat.add_assoc, Nat.add_comm 1, List.take_succ_cons, List.take_add, take_digitRun,
            hSign]
          rfl
        · rintro e ⟨⟩
          exact ⟨hAllowed, hMark, isRun_digitRun hDigits⟩
      · exact ⟨none, rfl, fun _ hMem => by cases hMem⟩

/-- A decimal is read where a digit stands. -/
theorem exists_decimal (hDigit : cs.head?.any Char.isDigit = true) :
    ∃ body, NumberBody.IsOf f body ∧ cs.take (f.decimalLength cs) = body.text f.separators ∧
      body.missing = none := by
  obtain ⟨fraction, hFraction, hFractionOf⟩ :=
    f.exists_fraction (cs.drop (f.digitRun Char.isDigit cs).length)
  obtain ⟨exponent, hExponent, hExponentOf⟩ := f.exists_exponent
    (cs.drop ((f.digitRun Char.isDigit cs).length +
      f.fractionLength (cs.drop (f.digitRun Char.isDigit cs).length)))
  have hWhole : f.digitRun Char.isDigit cs ≠ [] := by
    cases cs with
    | nil => cases hDigit
    | cons d rest =>
        have hFirst : d.isDigit = true := by simpa using hDigit
        rw [digitRun, if_pos hDigit, List.takeWhile_cons, if_pos (by simp [hFirst])]
        exact List.cons_ne_nil _ _
  refine ⟨.decimal (f.digitRun Char.isDigit cs) fraction exponent,
    .decimal (isRun_digitRun hWhole) hFractionOf hExponentOf, ?_, rfl⟩
  rw [decimalLength, List.take_add, List.take_add, take_digitRun, hFraction, hExponent,
    List.append_assoc]
  rfl

/-- Behind the mark of a base, its digits are read, if there are any. -/
theorem exists_marked {radix : Radix} (h : f.radix? cs = some radix) :
    ∃ body, NumberBody.IsOf f body ∧
      cs.take (2 + (f.digitRun radix.isDigit (cs.drop 2)).length) = body.text f.separators ∧
      body.missing =
        if (f.digitRun radix.isDigit (cs.drop 2)).isEmpty then some radix else none := by
  obtain ⟨mark, rest, rfl, hMark, hAllowed⟩ := eq_cons_mark_of_radix? h
  refine ⟨.marked radix mark (f.digitRun radix.isDigit rest), .marked hAllowed hMark ?_, ?_, ?_⟩
  · by_cases hNone : f.digitRun radix.isDigit rest = []
    · exact .inl hNone
    · exact .inr (isRun_digitRun hNone)
  · rw [List.take_add, List.drop_succ_cons, List.drop_succ_cons, List.drop_zero, take_digitRun]
    rfl
  · rw [List.drop_succ_cons, List.drop_succ_cons, List.drop_zero]
    cases f.digitRun radix.isDigit rest with
    | nil => rfl
    | cons d later => rfl

/-- Behind the sign of a literal stands a digit, and a sign is only read where a format has it. -/
theorem head_drop_signLength (h : f.starts cs = true) :
    (cs.drop (signLength cs)).head?.any Char.isDigit = true ∧
      ∃ negative, cs.take (signLength cs) = Numeral.minusText negative ∧
        (negative = true → f.negative = true) := by
  cases cs with
  | nil => cases h
  | cons c rest =>
      simp only [starts, Bool.or_eq_true, Bool.and_eq_true, beq_iff_eq] at h
      by_cases hMinus : c = '-'
      · subst hMinus
        rcases h with hDigit | ⟨⟨-, hNegative⟩, hDigit⟩
        · cases hDigit
        · exact ⟨hDigit, true, rfl, fun _ => hNegative⟩
      · have hDigit := h.resolve_right fun h => hMinus h.1.1
        rw [signLength, List.head?_cons, if_neg (by simpa using hMinus)]
        exact ⟨by simpa using hDigit, false, rfl, fun h => by cases h⟩

/-- What is read as a number is a literal of the format in writing, and it misses what the literal
misses. -/
theorem exists_literal (h : f.starts cs = true) :
    ∃ literal : NumberLiteral, literal.IsOf f ∧
      cs.take (f.extent cs).width = literal.text f.separators ∧
      (f.extent cs).missing = literal.body.missing := by
  obtain ⟨hDigit, negative, hSign, hNegative⟩ := head_drop_signLength h
  cases hRadix : f.radix? (cs.drop (signLength cs)) with
  | some radix =>
      obtain ⟨body, hBody, hText, hMissing⟩ := exists_marked hRadix
      refine ⟨⟨negative, body⟩, ⟨hNegative, hBody⟩, ?_, ?_⟩
      · rw [extent_of_radix? hRadix, Nat.add_assoc, List.take_add, hSign, hText]
        rfl
      · rw [extent_of_radix? hRadix, hMissing]
  | none =>
      obtain ⟨body, hBody, hText, hMissing⟩ := exists_decimal (f := f) hDigit
      refine ⟨⟨negative, body⟩, ⟨hNegative, hBody⟩, ?_, ?_⟩
      · rw [extent_of_radix?_eq_none hRadix, List.take_add, hSign, hText]
        rfl
      · rw [extent_of_radix?_eq_none hRadix, hMissing]

end NumberFormat

end Precedence
