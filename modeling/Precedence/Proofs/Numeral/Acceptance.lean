import Precedence.Proofs.Numeral.Value

/-!
Which texts have a value as numbers. Every text falls into one of a few forms once its separators
are dropped, and the form decides between a value and the kinds of error. The texts of literals have
a value exactly if that fits 64 bits. They are not the only ones: the digits of a base may follow a
plus sign, and a decimal with a fraction or an exponent may start with one or lack the digits on one
side of its point. Behind the mark of a base nothing is malformed: what is no digit there counts as
out of range.
-/
namespace Precedence

/-! ### Forms of texts -/

namespace Numeral

/-- A whole number with its sign. -/
def signed (negative : Bool) (magnitude : Nat) : Int :=
  if negative then -(magnitude : Int) else magnitude

/-- Whether a whole number fits 64 bits, as a signed number if it is negated and as an unsigned one
if not. -/
def InRange (negative : Bool) (n : Int) : Prop :=
  if negative then -2 ^ 63 ≤ n ∧ n < 2 ^ 63 else 0 ≤ n ∧ n < 2 ^ 64

/-- A sign, the mark of a base, and what stands behind these. -/
def IsMarked (negative : Bool) (radix : Radix) (rest text : List Char) : Prop :=
  ∃ mark ∈ radix.marks, text = minusText negative ++ '0' :: mark :: rest

/-- The mark of a base and behind it something other than digits of the base. -/
def IsStray (text : List Char) : Prop :=
  ∃ negative radix rest, IsMarked negative radix rest text ∧ rest ≠ [] ∧ ¬radix.AreDigits rest

/-- The mark of a base and behind it a plus sign with a number to the base that is in range. -/
def IsPlusMarked (text : List Char) : Prop :=
  ∃ negative radix digits, IsMarked negative radix ('+' :: digits) text ∧ radix.AreDigits digits ∧
    InRange negative (signed negative (magnitude radix.base digits))

/-- A decimal with a fraction or an exponent that starts with a plus sign or has digits on one side
of its point only. -/
def IsLoose (text : List Char) : Prop :=
  ∃ sign whole fraction exponent, Decimal.AreParts whole fraction exponent ∧
    (fraction ≠ none ∨ exponent ≠ none) ∧
    (sign = some false ∨ whole = [] ∨ fraction = some []) ∧
    text = NumberExponent.signText sign ++ Decimal.partsText whole fraction exponent

end Numeral

/-- Behind the mark of a base and in every part of a decimal there are digits, and nothing stands
among them. -/
inductive NumberBody.IsComplete : NumberBody → Prop
  | marked {radix : Radix} {mark : Char} {digits : List Char} (hMark : mark ∈ radix.marks)
      (hDigits : radix.AreDigits digits) : IsComplete (.marked radix mark digits)
  | decimal {whole : List Char} {fraction : Option (List Char)} {exponent : Option NumberExponent}
      (hWhole : Numeral.AreDigits whole) (hFraction : ∀ places ∈ fraction, Numeral.AreDigits places)
      (hExponent : ∀ e ∈ exponent, e.IsReadable) : IsComplete (.decimal whole fraction exponent)

namespace NumberLiteral

/-- The whole number that a literal denotes, unless it has a fraction or an exponent. -/
def whole? (literal : NumberLiteral) : Option Int :=
  match literal.body with
  | .marked radix _ digits =>
    some (Numeral.signed literal.negative (Numeral.magnitude radix.base digits))
  | .decimal digits none none =>
    some (Numeral.signed literal.negative (Numeral.magnitude 10 digits))
  | .decimal _ _ _ => none

/-- Whether the whole number that a literal denotes, if it denotes one, is in range. -/
def Fits (literal : NumberLiteral) : Prop :=
  ∀ n ∈ literal.whole?, Numeral.InRange literal.negative n

/-- A text without separators is a literal in writing. -/
structure Writes (literal : NumberLiteral) (text : List Char) : Prop where
  complete : literal.body.IsComplete
  text_eq : text = literal.text .standard

end NumberLiteral

namespace Numeral

/-- A literal whose whole number, if it denotes one, is in range, or one of the two forms that have
a value without being literals. -/
def HasValue (text : List Char) : Prop :=
  (∃ literal : NumberLiteral, literal.Writes text ∧ literal.Fits) ∨ IsPlusMarked text ∨
    IsLoose text

/-- A literal whose whole number is out of range, or something behind the mark of a base that is
neither digits nor, with a plus sign, a number in range. -/
def IsExcessive (text : List Char) : Prop :=
  (∃ literal : NumberLiteral, literal.Writes text ∧ ¬literal.Fits) ∨
    IsStray text ∧ ¬IsPlusMarked text

end Numeral

/-! ### Behind the mark of a base -/

namespace Numeral

variable {s : Separators} {text : List Char} {negative : Bool}

/-- A magnitude is in range up to the limit for its sign. -/
theorem inRange_signed {n : Nat} :
    InRange negative (signed negative n) ↔ if negative then n ≤ 2 ^ 63 else n < 2 ^ 64 := by
  cases negative with
  | true =>
      simp only [InRange, signed, if_true]
      omega
  | false =>
      simp only [InRange, signed, Bool.false_eq_true, if_false]
      omega

theorem whole_of_inRange (text : List Char) {n : Nat} (h : InRange negative (signed negative n)) :
    ∃ value, whole text negative n = .ok value := by
  rw [inRange_signed] at h
  cases negative with
  | true => exact ⟨_, if_pos h⟩
  | false => exact ⟨_, if_pos h⟩

theorem whole_of_not_inRange (text : List Char) {n : Nat}
    (h : ¬InRange negative (signed negative n)) :
    whole text negative n = .error (.outOfRange (String.ofList text)) := by
  rw [inRange_signed] at h
  cases negative with
  | true => exact if_neg h
  | false => exact if_neg h

theorem parse_of_isBareMark (h : IsBareMark (s.kept text)) : parse s text = .error .noDigits := by
  obtain ⟨negative, radix, mark, hMark, hKept⟩ := h
  exact (parse_of_marked hKept hMark).trans (if_pos rfl)

theorem parse_of_isPlusMarked (h : IsPlusMarked (s.kept text)) :
    ∃ value, parse s text = .ok value := by
  obtain ⟨negative, radix, digits, ⟨mark, hMark, hKept⟩, hDigits, hRange⟩ := h
  have hRead : radix.read? ('+' :: digits) = some (magnitude radix.base digits) :=
    Radix.read?_eq_some_iff.mpr ⟨hDigits, rfl⟩
  rw [parse_of_marked hKept hMark, if_neg (List.cons_ne_nil _ _), hRead]
  exact whole_of_inRange text hRange

/-- Whatever else stands behind the mark is out of range, digits or not. -/
theorem parse_of_isStray (h : IsStray (s.kept text)) (hPlus : ¬IsPlusMarked (s.kept text)) :
    parse s text = .error (.outOfRange (String.ofList text)) := by
  obtain ⟨negative, radix, rest, ⟨mark, hMark, hKept⟩, hSome, hStray⟩ := h
  rw [parse_of_marked hKept hMark, if_neg hSome]
  cases hRead : radix.read? rest with
  | none => rfl
  | some n =>
      obtain ⟨hDigits, rfl⟩ := Radix.read?_eq_some_iff.mp hRead
      -- What is read and is not digits alone starts with a plus sign.
      have hSign : rest = '+' :: Radix.withoutPlus rest := by
        apply (Radix.withoutPlus_eq_or rest).resolve_left
        intro hSame
        rw [← hSame] at hDigits
        exact hStray hDigits
      rw [hSign] at hKept
      apply whole_of_not_inRange text
      intro hRange
      exact hPlus ⟨negative, radix, _, ⟨mark, hMark, hKept⟩, hDigits, hRange⟩

/-! ### Where no base is marked -/

theorem isFractional_standard {cs : List Char} :
    isFractional .standard cs = true ↔ ∃ c ∈ cs, c = '.' ∨ c = 'e' ∨ c = 'E' := by
  simp [isFractional, Separators.standard, or_assoc]

theorem minusText_append_splitSign (cs : List Char) :
    cs = minusText (splitSign cs).1 ++ (splitSign cs).2 := by
  unfold splitSign
  split <;> rfl

theorem isFractional_splitSign (cs : List Char) :
    isFractional .standard (splitSign cs).2 = isFractional .standard cs := by
  unfold splitSign
  split <;> rfl

theorem withPoint_standard (cs : List Char) : withPoint .standard cs = cs := by
  rw [withPoint]
  apply List.map_id''
  intro c
  split
  · next hPoint => exact hPoint.symm
  · rfl

/-- With a fraction or an exponent it is the floating-point number that the text is read as. -/
theorem parse_of_isFractional
    (hPlain : markedRadix? (splitSign (Separators.standard.kept text)).2 = none)
    (hPart : isFractional .standard (Separators.standard.kept text) = true) :
    parse .standard text =
      (Decimal.Binary64.read? (Separators.standard.kept text)).elim
        (.error (.malformed (String.ofList text))) fun value => .ok (.float value) := by
  rw [← isFractional_splitSign] at hPart
  rw [Separators.kept] at hPlain hPart ⊢
  simp only [parse, hPlain, hPart, if_true, withPoint_standard]
  split
  · next hRead => rw [hRead, Option.elim_some]
  · next hRead => rw [hRead, Option.elim_none]

/-- Without them it has to be digits. -/
theorem parse_of_not_areDigits
    (hPlain : markedRadix? (splitSign (Separators.standard.kept text)).2 = none)
    (hPart : isFractional .standard (Separators.standard.kept text) = false)
    (hDigits : ¬AreDigits (splitSign (Separators.standard.kept text)).2) :
    parse .standard text = .error (.malformed (String.ofList text)) := by
  rw [← isFractional_splitSign] at hPart
  rw [Separators.kept] at hPlain hPart hDigits
  simp only [parse, hPlain, hPart, Bool.false_eq_true, if_false, List.all_eq_true]
  exact if_neg fun h => hDigits ⟨h.1, h.2⟩

section

variable {whole : List Char} {fraction : Option (List Char)} {exponent : Option NumberExponent}
  (h : Decimal.AreParts whole fraction exponent) (sign : Option Bool)

include h

/-- No part of a decimal marks a base. -/
theorem not_isMark_of_mem_partsText :
    ∀ c ∈ NumberExponent.signText sign ++ Decimal.partsText whole fraction exponent,
      ¬NumberFormat.IsMark c := by
  intro c hMem hMark
  have hNoDigit : c.isDigit = false := by rcases hMark with rfl | rfl | rfl | rfl <;> rfl
  have hNoSign : c ≠ '+' ∧ c ≠ '-' := by rcases hMark with rfl | rfl | rfl | rfl <;> decide
  have hSign {sign : Option Bool} : c ∉ NumberExponent.signText sign := fun hMem =>
    (NumberExponent.mem_signText hMem).elim hNoSign.1 hNoSign.2
  have hDigits {cs : List Char} (hAll : ∀ d ∈ cs, d.isDigit = true) : c ∉ cs := fun hMem =>
    Bool.false_ne_true (hNoDigit.symm.trans (hAll c hMem))
  obtain ⟨hWhole, hPlaces⟩ := List.forall_mem_append.mp h.digits.all
  rcases List.mem_append.mp hMem with hMem | hMem
  · exact hSign hMem
  rcases List.mem_append.mp hMem with hMem | hMem
  · exact hDigits hWhole hMem
  rcases List.mem_append.mp hMem with hMem | hMem
  · cases fraction with
    | none => cases hMem
    | some places =>
        rcases List.mem_cons.mp hMem with rfl | hMem
        · rcases hMark with hSame | hSame | hSame | hSame <;> cases hSame
        · exact hDigits hPlaces hMem
  · cases exponent with
    | none => cases hMem
    | some e =>
        obtain ⟨hLetter, hAll⟩ := h.readable e rfl
        rcases List.mem_cons.mp hMem with rfl | hMem
        · rcases hLetter with hSame | hSame <;> simp [NumberFormat.IsMark, hSame] at hMark
        · rcases List.mem_append.mp hMem with hMem | hMem
          · exact hSign hMem
          · exact hDigits hAll.all hMem

/-- The parts of a decimal tell whether it is more than a whole number. -/
theorem isFractional_partsText :
    isFractional .standard
        (NumberExponent.signText sign ++ Decimal.partsText whole fraction exponent) = true ↔
      fraction ≠ none ∨ exponent ≠ none := by
  rw [isFractional_standard]
  constructor
  · rintro ⟨c, hMem, hPart⟩
    by_contra hNone
    rw [not_or, not_not, not_not] at hNone
    obtain ⟨rfl, rfl⟩ := hNone
    rcases List.mem_append.mp hMem with hMem | hMem
    · rcases NumberExponent.mem_signText hMem with rfl | rfl <;> simp at hPart
    · have hDigit : c.isDigit = true := h.digits.all c hMem
      rcases hPart with rfl | rfl | rfl <;> cases hDigit
  · rintro (hSome | hSome)
    · obtain ⟨places, rfl⟩ := Option.ne_none_iff_exists'.mp hSome
      exact ⟨'.', by simp [Decimal.partsText], .inl rfl⟩
    · obtain ⟨e, rfl⟩ := Option.ne_none_iff_exists'.mp hSome
      refine ⟨e.mark, ?_, .inr (h.readable e rfl).mark⟩
      simp [Decimal.partsText, NumberBody.exponentText, NumberExponent.text]

/-- The parts of a decimal have a value, with whatever sign, if they are more than a whole
number. -/
theorem parse_of_parts (hPart : fraction ≠ none ∨ exponent ≠ none)
    (hKept : Separators.standard.kept text =
      NumberExponent.signText sign ++ Decimal.partsText whole fraction exponent) :
    ∃ value, parse .standard text = .ok value := by
  have hPlain : markedRadix? (splitSign (Separators.standard.kept text)).2 = none := by
    apply markedRadix?_eq_none
    intro c hMem
    apply not_isMark_of_mem_partsText h sign c
    rw [← hKept, minusText_append_splitSign (Separators.standard.kept text)]
    exact List.mem_append_right _ hMem
  have hFractional := (isFractional_partsText h sign).mpr hPart
  rw [← hKept] at hFractional
  rw [parse_of_isFractional hPlain hFractional, hKept, Decimal.Binary64.read?_partsText sign h]
  exact ⟨_, rfl⟩

/-- With a sign or without they are a literal, unless they are written loosely. -/
theorem exists_writes_or_isLoose (hPart : fraction ≠ none ∨ exponent ≠ none) :
    (∃ literal : NumberLiteral, literal.Writes
      (NumberExponent.signText sign ++ Decimal.partsText whole fraction exponent)) ∨
    IsLoose (NumberExponent.signText sign ++ Decimal.partsText whole fraction exponent) := by
  by_cases hLoose : sign = some false ∨ whole = [] ∨ fraction = some []
  · exact .inr ⟨sign, whole, fraction, exponent, h, hPart, hLoose, rfl⟩
  · left
    rw [not_or, not_or] at hLoose
    obtain ⟨hSign, hWhole, hPlaces⟩ := hLoose
    obtain ⟨hAllWhole, hAllPlaces⟩ := List.forall_mem_append.mp h.digits.all
    refine ⟨⟨sign == some true, .decimal whole fraction exponent⟩,
      .decimal ⟨hWhole, hAllWhole⟩ ?_ h.readable, ?_⟩
    · rintro places rfl
      exact ⟨fun hNone => hPlaces (congrArg some hNone), hAllPlaces⟩
    · rcases sign with - | minus
      · rfl
      · cases minus with
        | true => rfl
        | false => exact absurd rfl hSign

end

end Numeral

/-! ### Literals -/

namespace NumberLiteral

open Numeral

variable {literal : NumberLiteral} {text : List Char}

theorem text_decimal (negative : Bool) (whole : List Char) (fraction : Option (List Char))
    (exponent : Option NumberExponent) :
    NumberLiteral.text .standard ⟨negative, .decimal whole fraction exponent⟩ =
      NumberExponent.signText (if negative then some true else none) ++
        Decimal.partsText whole fraction exponent := by
  cases negative <;> rfl

/-- A literal in writing is parsed to a whole number, which may be out of range, or to a
floating-point number. -/
theorem Writes.parse_eq (h : literal.Writes (Separators.standard.kept text)) :
    (∃ n, literal.whole? = some (signed literal.negative n) ∧
      parse .standard text = whole text literal.negative n) ∨
    (literal.whole? = none ∧ ∃ value, parse .standard text = .ok value) := by
  obtain ⟨hComplete, hKept⟩ := h
  obtain ⟨negative, body⟩ := literal
  cases hComplete with
  | marked hMark hDigits =>
      left
      exact ⟨_, rfl, (parse_of_mark hKept hMark hDigits.all).trans (if_neg hDigits.some)⟩
  | @decimal digits fraction exponent hWhole hFraction hExponent =>
      have hRead (hPart : fraction ≠ none ∨ exponent ≠ none) :
          ∃ value, parse .standard text = .ok value := by
        rw [text_decimal] at hKept
        exact parse_of_parts (Decimal.areParts hWhole hFraction hExponent) _ hPart hKept
      cases fraction with
      | none =>
          cases exponent with
          | none =>
              left
              refine ⟨_, rfl, parse_of_digits ?_ hWhole rfl⟩
              rw [hKept]
              exact congrArg _ (List.append_nil _)
          | some e => exact .inr ⟨rfl, hRead (.inr (by simp))⟩
      | some places => exact .inr ⟨rfl, hRead (.inl (by simp))⟩

theorem Writes.parse_of_fits (h : literal.Writes (Separators.standard.kept text))
    (hFits : literal.Fits) : ∃ value, parse .standard text = .ok value := by
  rcases h.parse_eq with ⟨n, hWhole, hParse⟩ | ⟨-, hParse⟩
  · rw [hParse]
    exact whole_of_inRange text (hFits _ hWhole)
  · exact hParse

theorem Writes.parse_of_not_fits (h : literal.Writes (Separators.standard.kept text))
    (hExceeds : ¬literal.Fits) :
    parse .standard text = .error (.outOfRange (String.ofList text)) := by
  rcases h.parse_eq with ⟨n, hWhole, hParse⟩ | ⟨hNone, -⟩
  · rw [hParse]
    apply whole_of_not_inRange text
    intro hRange
    apply hExceeds
    intro m hMem
    rw [hWhole] at hMem
    cases hMem
    exact hRange
  · exact absurd (fun n hMem => by rw [hNone] at hMem; cases hMem) hExceeds

/-- A literal starts with a digit, behind a minus sign or not. -/
theorem Writes.exists_digit (h : literal.Writes text) :
    ∃ d later, text = minusText literal.negative ++ d :: later ∧ d.isDigit = true := by
  obtain ⟨hComplete, rfl⟩ := h
  obtain ⟨negative, body⟩ := literal
  cases hComplete with
  | @marked radix mark digits _ _ => exact ⟨'0', mark :: digits, rfl, rfl⟩
  | decimal hWhole _ _ =>
      obtain ⟨d, later, rfl⟩ := List.exists_cons_of_ne_nil hWhole.some
      exact ⟨d, _, rfl, hWhole.all d List.mem_cons_self⟩

/-- Behind the mark of a base a literal has digits of the base. -/
theorem Writes.areDigits_of_isMarked {negative : Bool} {radix : Radix} {rest : List Char}
    (h : literal.Writes text) (hMarked : IsMarked negative radix rest text) :
    radix.AreDigits rest := by
  obtain ⟨mark, hMark, rfl⟩ := hMarked
  obtain ⟨hComplete, hText⟩ := h
  obtain ⟨sign, body⟩ := literal
  cases hComplete with
  | @marked other letter digits hLetter hDigits =>
      have hSame := congrArg splitSign hText
      rw [splitSign_minusText rfl, NumberLiteral.text, NumberBody.text, splitSign_minusText rfl]
        at hSame
      cases hSame
      have hRadix := markedRadix?_of_mem_marks hMark rest
      rw [markedRadix?_of_mem_marks hLetter rest] at hRadix
      cases hRadix
      exact hDigits
  | decimal hWhole hFraction hExponent =>
      have hParts := Decimal.areParts hWhole hFraction hExponent
      have hMem : mark ∈ minusText negative ++ '0' :: mark :: rest := by simp
      rw [hText, text_decimal] at hMem
      exact absurd (NumberFormat.isMark_of_mem_marks hMark)
        (not_isMark_of_mem_partsText hParts _ mark hMem)

end NumberLiteral

/-! ### The outcome for every text -/

namespace Numeral

variable {text : List Char}

/-- A text of none of the forms is malformed. -/
theorem parse_of_no_form
    (hLiteral : ∀ literal : NumberLiteral, ¬literal.Writes (Separators.standard.kept text))
    (hBare : ¬IsBareMark (Separators.standard.kept text))
    (hStray : ¬IsStray (Separators.standard.kept text))
    (hLoose : ¬IsLoose (Separators.standard.kept text)) :
    parse .standard text = .error (.malformed (String.ofList text)) := by
  obtain ⟨negative, body, hBody, hKept⟩ : ∃ negative body,
      (splitSign (Separators.standard.kept text)).2 = body ∧
        Separators.standard.kept text = minusText negative ++ body :=
    ⟨_, _, rfl, minusText_append_splitSign _⟩
  cases hMarked : markedRadix? (splitSign (Separators.standard.kept text)).2 with
  | some radix =>
      exfalso
      rw [hBody] at hMarked
      obtain ⟨mark, rest, rfl, hMark⟩ := eq_cons_mark_of_markedRadix? hMarked
      by_cases hNone : rest = []
      · exact hBare ⟨negative, radix, mark, hMark, hNone ▸ hKept⟩
      · by_cases hDigits : radix.AreDigits rest
        · exact hLiteral ⟨negative, .marked radix mark rest⟩ ⟨.marked hMark hDigits, hKept⟩
        · exact hStray ⟨negative, radix, rest, ⟨mark, hMark, hKept⟩, hNone, hDigits⟩
  | none =>
      cases hPart : isFractional .standard (Separators.standard.kept text) with
      | true =>
          rw [parse_of_isFractional hMarked hPart]
          cases hRead : Decimal.Binary64.read? (Separators.standard.kept text) with
          | none => rfl
          | some value =>
              exfalso
              obtain ⟨sign, whole, fraction, exponent, hParts, hText⟩ :=
                Decimal.Binary64.exists_parts_of_read? hRead (isFractional_standard.mp hPart)
              rw [hText] at hLiteral hLoose hPart
              have hMore := (isFractional_partsText hParts sign).mp hPart
              rcases exists_writes_or_isLoose hParts sign hMore with ⟨literal, hWrites⟩ | hIs
              · exact hLiteral literal hWrites
              · exact hLoose hIs
      | false =>
          apply parse_of_not_areDigits hMarked hPart
          intro hDigits
          rw [hBody] at hDigits
          refine hLiteral ⟨negative, .decimal body none none⟩
            ⟨.decimal hDigits (by simp) (by simp), hKept.trans ?_⟩
          exact (congrArg _ (List.append_nil body)).symm

theorem parse_of_hasValue (h : HasValue (Separators.standard.kept text)) :
    ∃ value, parse .standard text = .ok value := by
  rcases h with ⟨literal, hWrites, hFits⟩ | hPlus | hLoose
  · exact hWrites.parse_of_fits hFits
  · exact parse_of_isPlusMarked hPlus
  · obtain ⟨sign, whole, fraction, exponent, hParts, hPart, -, hKept⟩ := hLoose
    exact parse_of_parts hParts sign hPart hKept

theorem parse_of_isExcessive (h : IsExcessive (Separators.standard.kept text)) :
    parse .standard text = .error (.outOfRange (String.ofList text)) := by
  rcases h with ⟨literal, hWrites, hExceeds⟩ | ⟨hStray, hPlus⟩
  · exact hWrites.parse_of_not_fits hExceeds
  · exact parse_of_isStray hStray hPlus

/-- The forms leave no text out, and each has its outcome. -/
theorem parse_forms (text : List Char) :
    (HasValue (Separators.standard.kept text) ∧ ∃ value, parse .standard text = .ok value) ∨
    (IsExcessive (Separators.standard.kept text) ∧
      parse .standard text = .error (.outOfRange (String.ofList text))) ∨
    (IsBareMark (Separators.standard.kept text) ∧ parse .standard text = .error .noDigits) ∨
    (¬(HasValue (Separators.standard.kept text) ∨ IsExcessive (Separators.standard.kept text) ∨
        IsBareMark (Separators.standard.kept text)) ∧
      parse .standard text = .error (.malformed (String.ofList text))) := by
  by_cases hValue : HasValue (Separators.standard.kept text)
  · exact .inl ⟨hValue, parse_of_hasValue hValue⟩
  by_cases hExcessive : IsExcessive (Separators.standard.kept text)
  · exact .inr (.inl ⟨hExcessive, parse_of_isExcessive hExcessive⟩)
  by_cases hBare : IsBareMark (Separators.standard.kept text)
  · exact .inr (.inr (.inl ⟨hBare, parse_of_isBareMark hBare⟩))
  refine .inr (.inr (.inr ⟨by simp only [hValue, hExcessive, hBare, or_self, not_false_eq_true],
    parse_of_no_form (fun literal hWrites => ?_) hBare (fun hStray => ?_) fun hLoose => ?_⟩))
  · by_cases hFits : literal.Fits
    · exact hValue (.inl ⟨literal, hWrites, hFits⟩)
    · exact hExcessive (.inl ⟨literal, hWrites, hFits⟩)
  · by_cases hPlus : IsPlusMarked (Separators.standard.kept text)
    · exact hValue (.inr (.inl hPlus))
    · exact hExcessive (.inr ⟨hStray, hPlus⟩)
  · exact hValue (.inr (.inr hLoose))

theorem parse_eq_ok_iff (text : List Char) :
    (∃ value, parse .standard text = .ok value) ↔
      HasValue (Separators.standard.kept text) := by
  refine ⟨fun ⟨value, hParse⟩ => ?_, parse_of_hasValue⟩
  rcases parse_forms text with ⟨h, -⟩ | ⟨-, hOther⟩ | ⟨-, hOther⟩ | ⟨-, hOther⟩
  · exact h
  all_goals cases hParse.symm.trans hOther

theorem parse_eq_outOfRange_iff (text : List Char) (about : String) :
    parse .standard text = .error (.outOfRange about) ↔
      about = String.ofList text ∧ IsExcessive (Separators.standard.kept text) := by
  constructor
  · intro hParse
    rcases parse_forms text with ⟨-, value, hOther⟩ | ⟨h, hSame⟩ | ⟨-, hOther⟩ | ⟨-, hOther⟩
    · cases hParse.symm.trans hOther
    · cases hParse.symm.trans hSame
      exact ⟨rfl, h⟩
    all_goals cases hParse.symm.trans hOther
  · rintro ⟨rfl, h⟩
    exact parse_of_isExcessive h

theorem parse_eq_noDigits_iff (text : List Char) :
    parse .standard text = .error .noDigits ↔ IsBareMark (Separators.standard.kept text) := by
  refine ⟨fun hParse => ?_, parse_of_isBareMark⟩
  rcases parse_forms text with ⟨-, value, hOther⟩ | ⟨-, hOther⟩ | ⟨h, -⟩ | ⟨-, hOther⟩
  · cases hParse.symm.trans hOther
  · cases hParse.symm.trans hOther
  · exact h
  · cases hParse.symm.trans hOther

theorem parse_eq_malformed_iff (text : List Char) (about : String) :
    parse .standard text = .error (.malformed about) ↔
      about = String.ofList text ∧
        ¬(HasValue (Separators.standard.kept text) ∨
          IsExcessive (Separators.standard.kept text) ∨
          IsBareMark (Separators.standard.kept text)) := by
  constructor
  · intro hParse
    rcases parse_forms text with ⟨-, value, hOther⟩ | ⟨-, hOther⟩ | ⟨-, hOther⟩ | ⟨h, hSame⟩
    · cases hParse.symm.trans hOther
    · cases hParse.symm.trans hOther
    · cases hParse.symm.trans hOther
    · cases hParse.symm.trans hSame
      exact ⟨rfl, h⟩
  · rintro ⟨rfl, hNone⟩
    rcases parse_forms text with ⟨h, -⟩ | ⟨h, -⟩ | ⟨h, -⟩ | ⟨-, hSame⟩
    · exact absurd (.inl h) hNone
    · exact absurd (.inr (.inl h)) hNone
    · exact absurd (.inr (.inr h)) hNone
    · exact hSame

/-- The form of a text without its separators decides whether it has a value, and if not, why. A
text is malformed if it is of none of the other forms. -/
theorem parse_outcome (text : List Char) :
    ((∃ value, parse .standard text = .ok value) ↔
      HasValue (Separators.standard.kept text)) ∧
    (∀ about, parse .standard text = .error (.outOfRange about) ↔
      about = String.ofList text ∧ IsExcessive (Separators.standard.kept text)) ∧
    (parse .standard text = .error .noDigits ↔ IsBareMark (Separators.standard.kept text)) ∧
    ∀ about, parse .standard text = .error (.malformed about) ↔
      about = String.ofList text ∧
        ¬(HasValue (Separators.standard.kept text) ∨
          IsExcessive (Separators.standard.kept text) ∨
          IsBareMark (Separators.standard.kept text)) :=
  ⟨parse_eq_ok_iff text, parse_eq_outOfRange_iff text, parse_eq_noDigits_iff text,
    parse_eq_malformed_iff text⟩

end Numeral

namespace Sample

open Numeral

/-- None of these is a literal, but two of them have values and one is out of range. -/
theorem parse_standard_without_literal :
    parse .standard ['0', 'x', '+', '5'] = .ok (.unsigned 5) ∧
      parse .standard ['+', '1', '.', '5'] = .ok (.float (.ofDecimal false 15 (-1))) ∧
      parse .standard ['0', 'x', 'g'] = .error (.outOfRange "0xg") ∧
      ∀ text ∈ [['0', 'x', '+', '5'], ['+', '1', '.', '5'], ['0', 'x', 'g']],
        ∀ literal : NumberLiteral, ¬literal.Writes (Separators.standard.kept text) := by
  refine ⟨rfl, by decide +kernel, rfl, ?_⟩
  intro text hMem literal hWrites
  rw [List.mem_cons, List.mem_pair] at hMem
  rcases hMem with rfl | rfl | rfl
  · have hMarked : IsMarked false .hexadecimal ['+', '5'] ['0', 'x', '+', '5'] :=
      ⟨'x', by decide, rfl⟩
    exact absurd ((hWrites.areDigits_of_isMarked hMarked).all '+' (by decide)) (by decide)
  · obtain ⟨d, later, hText, hDigit⟩ := hWrites.exists_digit
    have hHead := congrArg List.head? hText
    cases hSign : literal.negative with
    | true =>
        rw [hSign] at hHead
        cases hHead
    | false =>
        rw [hSign] at hHead
        cases hHead
        cases hDigit
  · have hMarked : IsMarked false .hexadecimal ['g'] ['0', 'x', 'g'] := ⟨'x', by decide, rfl⟩
    exact absurd ((hWrites.areDigits_of_isMarked hMarked).all 'g' (by decide)) (by decide)

end Sample

end Precedence
