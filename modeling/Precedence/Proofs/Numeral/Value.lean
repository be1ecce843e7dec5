import Precedence.Grammar.Sample
import Precedence.Proofs.Lexer.Tokens
import Precedence.Proofs.Numeral.Digits

/-!
The values of number literals. What the lexer reads as a number is parsed to what it denotes: a
whole number to its base if that fits 64 bits, or a floating-point number if there is a fraction or
an exponent; and only the mark of a base without digits, which the lexer reports, denotes nothing.
-/
namespace Precedence

/-! ### What a literal denotes -/

namespace Numeral

/-- A whole number as the value of a text: signed if it is negated, and out of range if it does not
fit 64 bits. -/
def whole (text : List Char) (negative : Bool) (magnitude : Nat) : Except NumeralError Literal :=
  if negative then
    if magnitude ≤ 2 ^ 63 then .ok (.signed (-(magnitude : Int)))
    else .error (.outOfRange (String.ofList text))
  else
    if magnitude < 2 ^ 64 then .ok (.unsigned magnitude)
    else .error (.outOfRange (String.ofList text))

end Numeral

/-- What a literal denotes. A decimal with a fraction or an exponent denotes the floating-point
number nearest to it. -/
def NumberLiteral.value (separators : Separators) (literal : NumberLiteral) :
    Except NumeralError Literal :=
  match literal.body with
  | .marked _ _ [] => .error .noDigits
  | .marked radix _ digits =>
    Numeral.whole (literal.text separators) literal.negative (Numeral.magnitude radix.base digits)
  | .decimal digits none none =>
    Numeral.whole (literal.text separators) literal.negative (Numeral.magnitude 10 digits)
  | .decimal digits fraction exponent =>
    let places := fraction.getD []
    .ok (.float (.ofDecimal literal.negative (Numeral.magnitude 10 (digits ++ places))
      (exponent.elim 0 (·.value) - (places.filterMap Radix.digitValue?).length)))

/-! ### The text without separators -/

/-- An exponent without the separators among its digits. -/
def NumberExponent.kept (s : Separators) (e : NumberExponent) : NumberExponent :=
  { e with digits := s.kept e.digits }

namespace Separators

variable {s : Separators} (hApart : s.areApart = true)

include hApart

theorem kept_minusText (negative : Bool) :
    s.kept (Numeral.minusText negative) = Numeral.minusText negative := by
  cases negative with
  | true => exact kept_cons (ne_sign_of_areApart hApart (.inr rfl)).1 []
  | false => rfl

theorem kept_fractionText (fraction : Option (List Char)) :
    s.kept (NumberBody.fractionText s fraction) =
      NumberBody.fractionText s (fraction.map s.kept) := by
  cases fraction with
  | none => rfl
  | some places => exact kept_cons (ne_fraction_of_areApart hApart) places

theorem kept_signText (sign : Option Bool) :
    s.kept (NumberExponent.signText sign) = NumberExponent.signText sign := by
  rcases sign with - | minus
  · rfl
  · cases minus with
    | true => exact kept_cons (ne_sign_of_areApart hApart (.inr rfl)).1 []
    | false => exact kept_cons (ne_sign_of_areApart hApart (.inl rfl)).1 []

theorem kept_exponentText {exponent : Option NumberExponent}
    (hMark : ∀ e ∈ exponent, e.mark = 'e' ∨ e.mark = 'E') :
    s.kept (NumberBody.exponentText exponent) =
      NumberBody.exponentText (exponent.map (·.kept s)) := by
  cases exponent with
  | none => rfl
  | some e =>
      have hAlphanum : e.mark.isAlphanum = true := by
        rcases hMark e rfl with h | h <;> rw [h] <;> rfl
      have hKept := ne_digit (areMarks_of_areApart hApart) hAlphanum
      simp [NumberBody.exponentText, NumberExponent.text, NumberExponent.kept, kept_cons hKept,
        kept_signText hApart]

end Separators

namespace Numeral

variable {s : Separators}

theorem withPoint_eq_self {cs : List Char} (h : ∀ c ∈ cs, c ≠ s.fraction) :
    withPoint s cs = cs := by
  rw [withPoint, List.map_congr_left fun c hMem => if_neg (h c hMem), List.map_id']

theorem splitSign_minusText {d : Char} (h : d.isDigit = true) (cs : List Char) (negative : Bool) :
    splitSign (minusText negative ++ d :: cs) = (negative, d :: cs) := by
  cases negative with
  | true => rfl
  | false =>
      show splitSign (d :: cs) = (false, d :: cs)
      unfold splitSign
      split
      · next hSame =>
        cases hSame
        cases h
      · rfl

/-- A whole number is a literal as far as it fits 64 bits. -/
theorem whole_eq (text : List Char) (negative : Bool) (magnitude : Nat) :
    (match integer? negative magnitude with
      | some literal => Except.ok literal
      | none => .error (.outOfRange (String.ofList text))) = whole text negative magnitude := by
  unfold integer? whole signedLimit unsignedLimit
  cases negative with
  | true =>
      by_cases hFits : magnitude ≤ Nat.pow 2 63
      · rw [if_pos rfl, if_pos rfl, if_pos hFits]
        exact (if_pos hFits).symm
      · rw [if_pos rfl, if_pos rfl, if_neg hFits]
        exact (if_neg hFits).symm
  | false =>
      by_cases hFits : magnitude < Nat.pow 2 64
      · rw [if_neg Bool.false_ne_true, if_neg Bool.false_ne_true, if_pos hFits]
        exact (if_pos hFits).symm
      · rw [if_neg Bool.false_ne_true, if_neg Bool.false_ne_true, if_neg hFits]
        exact (if_neg hFits).symm

/-- Where no letter marks a base, no base is marked. -/
theorem markedRadix?_eq_none {cs : List Char} (h : ∀ c ∈ cs, ¬NumberFormat.IsMark c) :
    markedRadix? cs = none := by
  by_contra hSome
  obtain ⟨radix, hRadix⟩ := Option.ne_none_iff_exists'.mp hSome
  obtain ⟨mark, rest, rfl, hMark⟩ := eq_cons_of_markedRadix? hRadix
  exact h mark (by simp) hMark

theorem markedRadix?_of_mem_marks {radix : Radix} {mark : Char} (h : mark ∈ radix.marks)
    (digits : List Char) : markedRadix? ('0' :: mark :: digits) = some radix := by
  cases radix with
  | hexadecimal =>
      rcases List.mem_pair.mp h with rfl | rfl <;> rfl
  | binary =>
      rcases List.mem_pair.mp h with rfl | rfl <;> rfl

variable {text cs more : List Char} {negative : Bool}

/-- What stands behind the mark of a base is read as a number to the base, and is out of range if it
cannot be. -/
theorem parse_of_marked {radix : Radix} {mark : Char}
    (hKept : s.kept text = minusText negative ++ '0' :: mark :: cs) (hMark : mark ∈ radix.marks) :
    parse s text =
      if cs = [] then .error .noDigits
      else (radix.read? cs).elim (.error (.outOfRange (String.ofList text)))
        (whole text negative) := by
  have hSign := splitSign_minusText (d := '0') rfl (mark :: cs) negative
  have hMarked := markedRadix?_of_mem_marks hMark cs
  rw [Separators.kept] at hKept
  simp only [parse, hKept, hSign, hMarked, List.drop_succ_cons, List.drop_zero]
  split
  · rfl
  · cases radix.read? cs with
    | none => rfl
    | some n => exact whole_eq text negative n

/-- Digits of the base there are the number that they write. -/
theorem parse_of_mark {radix : Radix} {mark : Char}
    (hKept : s.kept text = minusText negative ++ '0' :: mark :: cs) (hMark : mark ∈ radix.marks)
    (hDigits : ∀ c ∈ cs, radix.isDigit c = true) :
    parse s text =
      if cs = [] then .error .noDigits else whole text negative (magnitude radix.base cs) := by
  rw [parse_of_marked hKept hMark]
  split
  · rfl
  · next hSome => rw [Radix.read?_of_digits hSome hDigits, Option.elim_some]

/-- Digits alone are a whole number. -/
theorem parse_of_digits (hKept : s.kept text = minusText negative ++ cs) (hDigits : AreDigits cs)
    (hMarks : s.areMarks = true) : parse s text = whole text negative (magnitude 10 cs) := by
  obtain ⟨d, later, rfl⟩ := List.exists_cons_of_ne_nil hDigits.some
  have hSign := splitSign_minusText (hDigits.all d List.mem_cons_self) later negative
  have hNoMark : markedRadix? (d :: later) = none := by
    apply markedRadix?_eq_none
    intro c hMem hMark
    have hDigit := hDigits.all c hMem
    rcases hMark with rfl | rfl | rfl | rfl <;> cases hDigit
  have hWhole : isFractional s (d :: later) = false := by
    apply List.any_eq_false.mpr
    intro c hMem hPart
    have hDigit := hDigits.all c hMem
    have hFraction := Separators.ne_fraction hMarks (Char.isAlphanum_of_isDigit hDigit)
    simp only [Bool.or_eq_true, beq_iff_eq, hFraction, false_or] at hPart
    rcases hPart with rfl | rfl <;> cases hDigit
  have hAll : (d :: later).all Char.isDigit = true := List.all_eq_true.mpr hDigits.all
  rw [Separators.kept] at hKept
  simp only [parse, hKept, hSign, hNoMark, hWhole, hAll, digitsValue_eq hDigits.all, ne_eq,
    reduceCtorEq, not_false_eq_true, and_self, if_true, Bool.false_eq_true, if_false]
  exact whole_eq text negative _

/-- With a fraction or an exponent behind them they are a floating-point number. -/
theorem parse_of_fractional (hKept : s.kept text = minusText negative ++ (cs ++ more))
    (hDigits : AreDigits cs) (hNoMark : ∀ c ∈ cs ++ more, ¬NumberFormat.IsMark c)
    (hFractional : isFractional s more = true) {value : Decimal.Binary64}
    (hRead : Decimal.Binary64.read? (withPoint s (s.kept text)) = some value) :
    parse s text = .ok (.float value) := by
  obtain ⟨d, later, rfl⟩ := List.exists_cons_of_ne_nil hDigits.some
  have hSign := splitSign_minusText (hDigits.all d List.mem_cons_self) (later ++ more) negative
  have hPlain : markedRadix? (d :: (later ++ more)) = none := markedRadix?_eq_none hNoMark
  have hPart : isFractional s (d :: (later ++ more)) = true := by
    rw [isFractional] at hFractional ⊢
    rw [← List.cons_append, List.any_append, hFractional, Bool.or_true]
  rw [Separators.kept] at hKept hRead
  rw [hKept, List.cons_append] at hRead
  simp only [parse, hKept, List.cons_append, hSign, hPlain, hPart, if_true, hRead]

end Numeral

/-! ### Literals of a format -/

section

open Numeral

variable {s : Separators} (hApart : s.areApart = true)

theorem Separators.IsRun.areDigits_kept {cs : List Char} (h : s.IsRun Char.isDigit cs)
    (hMarks : s.areMarks = true) : AreDigits (s.kept cs) := by
  obtain ⟨d, later, hKept, -⟩ := h.exists_kept hMarks fun _ => Char.isAlphanum_of_isDigit
  refine ⟨?_, fun c => h.of_mem_kept⟩
  rw [hKept]
  exact List.cons_ne_nil d later

include hApart

theorem Numeral.withPoint_digits {cs : List Char} (h : ∀ c ∈ cs, c.isDigit = true) :
    withPoint s cs = cs :=
  withPoint_eq_self fun c hMem =>
    Separators.ne_fraction (Separators.areMarks_of_areApart hApart)
      (Char.isAlphanum_of_isDigit (h c hMem))

/-- Only the fraction separator becomes a point. -/
theorem Numeral.withPoint_text (negative : Bool) {cs : List Char}
    (hDigits : AreDigits cs) {fraction : Option (List Char)}
    (hFraction : ∀ places ∈ fraction, AreDigits places) {exponent : Option NumberExponent}
    (hExponent : ∀ e ∈ exponent, e.IsReadable) :
    withPoint s (minusText negative ++
        (cs ++ (NumberBody.fractionText s fraction ++ NumberBody.exponentText exponent))) =
      minusText negative ++
        (cs ++ (fraction.elim [] ('.' :: ·) ++ NumberBody.exponentText exponent)) := by
  have hMinus : withPoint s (minusText negative) = minusText negative := by
    apply withPoint_eq_self
    intro c hMem
    cases negative with
    | true =>
        rw [List.mem_singleton.mp hMem]
        exact (Separators.ne_sign_of_areApart hApart (.inr rfl)).2
    | false => cases hMem
  have hPoint : withPoint s (NumberBody.fractionText s fraction) =
      fraction.elim [] ('.' :: ·) := by
    cases fraction with
    | none => rfl
    | some places =>
        have hPlaces := withPoint_digits hApart (hFraction places rfl).all
        rw [withPoint] at hPlaces
        simp [NumberBody.fractionText, withPoint, hPlaces]
  have hMark : withPoint s (NumberBody.exponentText exponent) =
      NumberBody.exponentText exponent := by
    cases exponent with
    | none => rfl
    | some e =>
        obtain ⟨hMark, hPlaces⟩ := hExponent e rfl
        have hMarks := Separators.areMarks_of_areApart hApart
        apply withPoint_eq_self
        intro c hMem
        rcases List.mem_cons.mp hMem with rfl | hBehind
        · apply Separators.ne_fraction hMarks
          rcases hMark with h | h <;> rw [h] <;> rfl
        · rcases List.mem_append.mp hBehind with hSign | hDigit
          · have hEither := NumberExponent.mem_signText hSign
            exact (Separators.ne_sign_of_areApart hApart hEither).2
          · exact Separators.ne_fraction hMarks (Char.isAlphanum_of_isDigit (hPlaces.all c hDigit))
  have hAppend (xs ys : List Char) : withPoint s (xs ++ ys) = withPoint s xs ++ withPoint s ys :=
    List.map_append
  rw [hAppend, hAppend, hAppend, hMinus, hPoint, hMark, withPoint_digits hApart hDigits.all]

end

namespace NumberBody

variable {f : NumberFormat} {digits : List Char} {fraction : Option (List Char)}
  {exponent : Option NumberExponent}

/-- A decimal with all that follows its digits is made of plain characters. -/
theorem isPlain_of_mem_text (h : IsOf f (.decimal digits fraction exponent)) {c : Char}
    (hMem : c ∈ (decimal digits fraction exponent).text f.separators) : f.IsPlain c := by
  cases h with
  | decimal hWhole hFraction hExponent =>
      have hRun {cs : List Char} (h : f.separators.IsRun Char.isDigit cs) (hMem : c ∈ cs) :
          f.IsPlain c := (h.members c hMem).imp_right .inl
      rcases List.mem_append.mp hMem with hDigits | hBehind
      · exact hRun hWhole hDigits
      · rcases List.mem_append.mp hBehind with hPlace | hMark
        · cases fraction with
          | none => cases hPlace
          | some places =>
              rcases List.mem_cons.mp hPlace with rfl | hPlace
              · exact .inr (.inr (.inl rfl))
              · exact hRun (hFraction places rfl).2 hPlace
        · cases exponent with
          | none => cases hMark
          | some e =>
              obtain ⟨-, hLetter, hPlaces⟩ := hExponent e rfl
              rcases List.mem_cons.mp hMark with rfl | hMark
              · rcases hLetter with hLetter | hLetter <;> simp [NumberFormat.IsPlain, hLetter]
              · rcases List.mem_append.mp hMark with hSign | hPlace
                · rcases NumberExponent.mem_signText hSign with rfl | rfl <;>
                    simp [NumberFormat.IsPlain]
                · exact hRun hPlaces hPlace

/-- A decimal without its separators: the sign and digits, with a fraction and an exponent or not,
all of which can be read. -/
theorem kept_text_decimal (hApart : f.separators.areApart = true)
    (h : IsOf f (.decimal digits fraction exponent)) (negative : Bool) :
    f.separators.kept
          (NumberLiteral.text f.separators ⟨negative, .decimal digits fraction exponent⟩) =
        Numeral.minusText negative ++ (f.separators.kept digits ++
          (fractionText f.separators (fraction.map f.separators.kept) ++
            exponentText (exponent.map (·.kept f.separators)))) ∧
      Numeral.AreDigits (f.separators.kept digits) ∧
      (∀ places ∈ fraction.map f.separators.kept, Numeral.AreDigits places) ∧
      ∀ e ∈ exponent.map (·.kept f.separators), e.IsReadable := by
  have hMarks := Separators.areMarks_of_areApart hApart
  cases h with
  | decimal hWhole hFraction hExponent =>
      refine ⟨?_, hWhole.areDigits_kept hMarks, ?_, ?_⟩
      · simp only [NumberLiteral.text, text, Separators.kept_append,
          Separators.kept_minusText hApart, Separators.kept_fractionText hApart,
          Separators.kept_exponentText hApart fun e hMem => (hExponent e hMem).mark]
      · intro places hMem
        obtain ⟨run, hRun, rfl⟩ := Option.map_eq_some_iff.mp hMem
        exact (hFraction run hRun).2.areDigits_kept hMarks
      · intro e hMem
        obtain ⟨written, hWritten, rfl⟩ := Option.map_eq_some_iff.mp hMem
        exact ⟨(hExponent written hWritten).mark,
          (hExponent written hWritten).digits.areDigits_kept hMarks⟩

end NumberBody

namespace NumberLiteral

variable {f : NumberFormat} {literal : NumberLiteral}

open Numeral

/-- A decimal with a fraction or an exponent is parsed to the nearest floating-point number. -/
theorem parse_text_fractional (hApart : f.separators.areApart = true) {digits : List Char}
    {fraction : Option (List Char)} {exponent : Option NumberExponent}
    (h : NumberBody.IsOf f (.decimal digits fraction exponent)) (negative : Bool)
    (hPart : fraction ≠ none ∨ exponent ≠ none) :
    parse f.separators (text f.separators ⟨negative, .decimal digits fraction exponent⟩) =
      .ok (.float (.ofDecimal negative (magnitude 10 (digits ++ fraction.getD []))
        (exponent.elim 0 (·.value) -
          ((fraction.getD []).filterMap Radix.digitValue?).length))) := by
  have hMarks := Separators.areMarks_of_areApart hApart
  obtain ⟨hKept, hDigits, hFraction, hExponent⟩ :=
    NumberBody.kept_text_decimal hApart h negative
  have hPoint := withPoint_text hApart negative hDigits hFraction hExponent
  have hRead := Decimal.Binary64.read?_minusText negative
    (Decimal.areParts hDigits hFraction hExponent)
  rw [Decimal.partsText, ← hPoint, ← hKept] at hRead
  rw [parse_of_fractional hKept hDigits ?_ ?_ hRead]
  · have hPlaces : (fraction.map f.separators.kept).getD [] =
        f.separators.kept (fraction.getD []) := by
      cases fraction <;> rfl
    have hCount : (f.separators.kept (fraction.getD [])).length =
        ((fraction.getD []).filterMap Radix.digitValue?).length := by
      rw [← Separators.filterMap_kept hMarks, length_filterMap_digits]
      intro c hMem
      cases fraction with
      | none => cases hMem
      | some places => exact (hFraction _ rfl).all c hMem
    have hValue : (exponent.map (·.kept f.separators)).elim 0 (·.value) =
        exponent.elim 0 (·.value) := by
      cases exponent with
      | none => rfl
      | some e =>
          simp [NumberExponent.value, NumberExponent.kept, magnitude_kept hMarks]
    rw [hPlaces, ← Separators.kept_append, magnitude_kept hMarks, hCount, hValue]
  · intro c hMem
    apply NumberFormat.not_isMark_of_isPlain hMarks
    have hWritten : c ∈ text f.separators ⟨false, .decimal digits fraction exponent⟩ := by
      have hFalse := (NumberBody.kept_text_decimal hApart h false).1
      have hMem : c ∈ minusText false ++ _ := List.mem_append_right _ hMem
      rw [← hFalse] at hMem
      exact (List.mem_filter.mp hMem).1
    exact NumberBody.isPlain_of_mem_text h hWritten
  · rw [isFractional, List.any_append, Bool.or_eq_true]
    rcases hPart with hSome | hSome
    · left
      obtain ⟨places, rfl⟩ := Option.ne_none_iff_exists'.mp hSome
      simp [NumberBody.fractionText]
    · right
      obtain ⟨e, rfl⟩ := Option.ne_none_iff_exists'.mp hSome
      have hMark := (hExponent _ rfl).mark
      rcases hMark with hMark | hMark <;>
        simp [NumberBody.exponentText, NumberExponent.text, hMark]

/-- The text of a literal is parsed to what the literal denotes. -/
theorem IsOf.parse_text (h : literal.IsOf f) (hApart : f.separators.areApart = true) :
    parse f.separators (literal.text f.separators) = literal.value f.separators := by
  have hMarks := Separators.areMarks_of_areApart hApart
  obtain ⟨negative, body⟩ := literal
  cases h.body with
  | @marked radix mark digits hAllowed hMark hDigits =>
      have hKept : f.separators.kept (text f.separators ⟨negative, .marked radix mark digits⟩) =
          minusText negative ++ '0' :: mark :: f.separators.kept digits := by
        have hZero := Separators.ne_digit hMarks (c := '0') rfl
        have hLetter := Separators.ne_digit hMarks
          (NumberFormat.isAlphanum_of_isMark (NumberFormat.isMark_of_mem_marks hMark))
        simp only [text, NumberBody.text, Separators.kept_append,
          Separators.kept_minusText hApart, Separators.kept_cons hZero,
          Separators.kept_cons hLetter]
      rcases hDigits with rfl | hRun
      · rw [parse_of_mark hKept hMark (List.forall_mem_nil _)]
        rfl
      · obtain ⟨d, later, hCons, -⟩ := hRun.exists_kept hMarks fun _ => Radix.isAlphanum_of_isDigit
        rw [parse_of_mark hKept hMark fun c => hRun.of_mem_kept, hCons, if_neg (by simp), ← hCons,
          magnitude_kept hMarks]
        cases digits with
        | nil => cases hRun.head
        | cons c rest => rfl
  | @decimal digits fraction exponent hWhole hFraction hExponent =>
      cases fraction with
      | none =>
          cases exponent with
          | none =>
              obtain ⟨hKept, hDigits, -⟩ := NumberBody.kept_text_decimal hApart h.body negative
              simp only [Option.map_none, NumberBody.fractionText, NumberBody.exponentText,
                Option.elim_none, List.append_nil] at hKept
              rw [parse_of_digits hKept hDigits hMarks, magnitude_kept hMarks]
              rfl
          | some e =>
              exact parse_text_fractional hApart h.body negative (.inr (by simp))
      | some places =>
          have hParsed := parse_text_fractional hApart h.body negative (.inl (by simp))
          cases exponent <;> exact hParsed

/-- Only what lacks digits denotes nothing for that reason. -/
theorem value_eq_noDigits_iff (separators : Separators) :
    literal.value separators = .error .noDigits ↔ literal.body.missing.isSome = true := by
  have hWhole (text : List Char) (negative : Bool) (magnitude : Nat) :
      whole text negative magnitude ≠ .error .noDigits := by
    unfold whole
    split
    all_goals
      split
      all_goals
        intro h
        cases h
  obtain ⟨negative, body⟩ := literal
  cases body with
  | marked radix mark digits =>
      cases digits with
      | nil => exact ⟨fun _ => rfl, fun _ => rfl⟩
      | cons d later => exact ⟨fun h => absurd h (hWhole _ _ _), fun h => by cases h⟩
  | decimal digits fraction exponent =>
      refine ⟨fun h => ?_, fun h => by cases h⟩
      cases fraction with
      | none =>
          cases exponent with
          | none => exact absurd h (hWhole _ _ _)
          | some e => cases h
      | some places => cases exponent <;> cases h

/-- Every literal is well formed. -/
theorem value_ne_malformed (separators : Separators) (text : String) :
    literal.value separators ≠ .error (.malformed text) := by
  intro h
  unfold value at h
  split at h
  · cases h
  · unfold whole at h
    split at h <;> split at h <;> cases h
  · unfold whole at h
    split at h <;> split at h <;> cases h
  · cases h

end NumberLiteral

namespace LiteralRule

variable {f : NumberFormat} {c : Cursor} {source : List Char} {reading : LiteralReading}

/-- What the rule for numbers reads is a literal of its format, and is parsed to what this literal
denotes. It lacks its digits exactly if that was reported about it, and is never malformed. -/
theorem parse_payload_of_read? (hApart : f.separators.areApart = true) (hIn : c.IsIn source)
    (hRead : (number f).read? c = some reading) :
    (∃ literal : NumberLiteral, literal.IsOf f ∧
      reading.token.payload source = literal.text f.separators) ∧
    (∀ literal : NumberLiteral, literal.IsOf f →
      reading.token.payload source = literal.text f.separators →
      Numeral.parse f.separators (reading.token.payload source) = literal.value f.separators) ∧
    (Numeral.parse f.separators (reading.token.payload source) = .error .noDigits ↔
      ∃ m ∈ reading.messages, m.code = .invalidNumber ∧ m.range = reading.token.range) ∧
    ∀ text, Numeral.parse f.separators (reading.token.payload source) ≠
      .error (.malformed text) := by
  rw [read?] at hRead
  split at hRead
  · next hStarts =>
    cases hRead
    obtain ⟨literal, hLiteral, hText, hMissing⟩ := NumberFormat.exists_literal hStarts
    have hPayload : (readNumber f c).token.payload source = literal.text f.separators := by
      rw [← hText]
      exact hIn.payload_tokenTo _ _
    have hParsed := hLiteral.parse_text hApart
    rw [hPayload, hParsed]
    refine ⟨⟨literal, hLiteral, rfl⟩, fun other hOther hSame => ?_, ?_,
      fun text => literal.value_ne_malformed f.separators text⟩
    · rw [← hParsed, hSame, hOther.parse_text hApart]
    · rw [NumberLiteral.value_eq_noDigits_iff, ← hMissing]
      cases hLacks : (f.extent c.rest).missing with
      | none => simp [readNumber, hLacks]
      | some radix =>
          simp only [readNumber, hLacks, Option.isSome_some, List.mem_singleton, exists_eq_left,
            true_iff]
          exact ⟨rfl, rfl⟩
  · cases hRead

end LiteralRule

namespace Sample

/-- The least signed number, in hexadecimal and with separators among its digits. -/
theorem parse_payload_of_read?_least :
    ∃ reading, (LiteralRule.number allNumbers).read? (.ofSource "-0x8000_0000_0000_0000;".toList) =
        some reading ∧
      Numeral.parse .standard (reading.token.payload "-0x8000_0000_0000_0000;".toList) =
        .ok (.signed (-9223372036854775808)) := by
  refine ⟨_, rfl, ?_⟩
  obtain ⟨-, hValue, -⟩ := LiteralRule.parse_payload_of_read? (f := allNumbers) (by decide)
    (Cursor.isIn_ofSource "-0x8000_0000_0000_0000;".toList) rfl
  have hAll : "8000_0000_0000_0000".toList.all (fun c =>
      Radix.hexadecimal.isDigit c || Separators.standard.digit == some c) = true := by decide
  have hDigits : Separators.standard.IsRun Radix.hexadecimal.isDigit
      "8000_0000_0000_0000".toList :=
    ⟨by decide, fun c hMem => by simpa using List.all_eq_true.mp hAll c hMem⟩
  apply (hValue ⟨true, .marked .hexadecimal 'x' "8000_0000_0000_0000".toList⟩
    ⟨fun _ => rfl, .marked rfl (by decide) (.inr hDigits)⟩ (by decide +kernel)).trans
  rfl

end Sample

end Precedence
